import Mathlib.Tactic.TypeStar

/-! Programs that call their environment. The environment says in which states it allows a call, and
relates each call to all the replies and later states that it may have. A program is safe when it makes
no other call, whatever the replies are, and its result meets a postcondition. -/

namespace ZephyrTutorial

inductive Program (Call : Type) (Reply : Call → Type) (α : Type)
  | pure (value : α)
  | call (operation : Call) (next : Reply operation → Program Call Reply α)

structure Environment (Call : Type) (Reply : Call → Type) (σ : Type) where
  Allowed : Call → σ → Prop
  Answers : (operation : Call) → σ → Reply operation → σ → Prop

namespace Program
variable {Call : Type} {Reply : Call → Type} {α β σ : Type}

def bind (program : Program Call Reply α) (next : α → Program Call Reply β) : Program Call Reply β :=
  match program with
  | .pure value => next value
  | .call operation rest => .call operation fun reply => (rest reply).bind next

instance : Monad (Program Call Reply) where
  pure := .pure
  bind := bind

def request (operation : Call) : Program Call Reply (Reply operation) := .call operation .pure

/-- What holds before the program when it is safe and ends as the postcondition says. -/
def wp (env : Environment Call Reply σ) (post : α → σ → Prop) : Program Call Reply α → σ → Prop
  | .pure value, state => post value state
  | .call operation next, state =>
    env.Allowed operation state ∧
      ∀ reply after, env.Answers operation state reply after → (next reply).wp env post after

/-- The configurations that a program may come to. -/
inductive Reaches (env : Environment Call Reply σ) (program : Program Call Reply α) (state : σ) :
    Program Call Reply α → σ → Prop
  | start : Reaches env program state program state
  | answer {operation : Call} {next : Reply operation → Program Call Reply α} {before after : σ}
    {reply : Reply operation} (reached : Reaches env program state (.call operation next) before)
    (allowed : env.Allowed operation before) (answered : env.Answers operation before reply after) :
    Reaches env program state (next reply) after

structure Safe (env : Environment Call Reply σ) (post : α → σ → Prop) (program : Program Call Reply α)
    (state : σ) : Prop where
  allowed {operation next before} : Reaches env program state (.call operation next) before →
    env.Allowed operation before
  result {value final} : Reaches env program state (.pure value) final → post value final

variable {env : Environment Call Reply σ} {post other : α → σ → Prop} {program current : Program Call Reply α}
  {state before : σ}

@[simp]
theorem wp_pure (value : α) : wp env post (Pure.pure value : Program Call Reply α) state ↔ post value state := Iff.rfl

@[simp]
theorem wp_request {operation : Call} {post : Reply operation → σ → Prop} :
    (request operation).wp env post state ↔ env.Allowed operation state ∧
      ∀ reply after, env.Answers operation state reply after → post reply after := Iff.rfl

@[simp]
theorem wp_bind {post : β → σ → Prop} {next : α → Program Call Reply β} :
    (program >>= next).wp env post state ↔ program.wp env (fun value after => (next value).wp env post after) state := by
  induction program generalizing state with
  | pure value => exact Iff.rfl
  | call operation rest ih => exact and_congr_right fun _ => forall₃_congr fun reply _ _ => ih reply

theorem wp_mono (holds : program.wp env post state)
    (implies : ∀ value after, post value after → other value after) : program.wp env other state := by
  induction program generalizing state with
  | pure value => exact implies value state holds
  | call operation rest ih =>
    exact ⟨holds.1, fun reply after answered => ih reply (holds.2 reply after answered)⟩

private theorem wp_reaches (holds : program.wp env post state) (reached : Reaches env program state current before) :
    current.wp env post before := by
  induction reached with
  | start => exact holds
  | answer _ _ answered ih => exact ih.2 _ _ answered

theorem Reaches.trans {later : Program Call Reply α} {after : σ} (first : Reaches env program state current before)
    (rest : Reaches env current before later after) : Reaches env program state later after := by
  induction rest with
  | start => exact first
  | answer _ allowed answered ih => exact .answer ih allowed answered

/-- The rules are sound and lose nothing. -/
theorem safe_iff : Safe env post program state ↔ program.wp env post state := by
  constructor
  · intro safe
    induction program generalizing state with
    | pure value => exact safe.result .start
    | call operation next ih =>
      have allowed := safe.allowed .start
      refine ⟨allowed, fun reply after answered => ih reply ?_⟩
      have first : Reaches env (.call operation next) state (next reply) after := .answer .start allowed answered
      exact ⟨fun reached => safe.allowed (first.trans reached), fun reached => safe.result (first.trans reached)⟩
  · intro holds
    exact ⟨fun reached => (wp_reaches holds reached).1, fun reached => wp_reaches holds reached⟩

/-- A safe program comes to its end in every environment that answers what it allows. -/
theorem Safe.returns (safe : Safe env post program state)
    (answering : ∀ operation state, env.Allowed operation state → ∃ reply after, env.Answers operation state reply after) :
    ∃ value final, Reaches env program state (.pure value) final ∧ post value final := by
  induction program generalizing state with
  | pure value => exact ⟨value, state, .start, safe.result .start⟩
  | call operation next ih =>
    have allowed := safe.allowed .start
    obtain ⟨reply, after, answered⟩ := answering operation state allowed
    have first : Reaches env (.call operation next) state (next reply) after := .answer .start allowed answered
    have later : Safe env post (next reply) after :=
      ⟨fun reached => safe.allowed (first.trans reached), fun reached => safe.result (first.trans reached)⟩
    obtain ⟨value, final, reached, holds⟩ := ih reply later
    exact ⟨value, final, first.trans reached, holds⟩

end Program

end ZephyrTutorial
