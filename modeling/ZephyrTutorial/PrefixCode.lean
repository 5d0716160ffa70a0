import Mathlib.Data.List.Basic

/-! Codes in which no word begins another one. A reader that takes one word after the other off
a text recovers the message, and a last word that has not ended yet does not mislead it. -/

namespace ZephyrTutorial.PrefixCode

universe u v

variable {α : Type u} {σ : Type v}

def encode (code : α → List σ) (message : List α) : List σ := message.flatMap code

theorem encode_cons (code : α → List σ) (letter : α) (message : List α) :
    encode code (letter :: message) = code letter ++ encode code message :=
  List.flatMap_cons

structure PrefixFree (code : α → List σ) : Prop where
  filled : ∀ letter, code letter ≠ []
  apart : ∀ first second, code first <+: code second → first = second

variable {code : α → List σ}

theorem PrefixFree.open_nil (free : PrefixFree code) (letter : α) : ¬ code letter <+: [] := by
  intro empty
  exact free.filled letter (List.prefix_nil.mp empty)

/-- No word fits into a proper part of another one, or of itself. -/
theorem PrefixFree.open_part (free : PrefixFree code) {part : List σ} {word : α} (inside : part <+: code word)
    (proper : part ≠ code word) (letter : α) : ¬ code letter <+: part := by
  intro fits
  have same : letter = word := free.apart letter word (fits.trans inside)
  subst same
  exact proper (inside.eq_of_length_le fits.length_le)

/-- A part of a text consists of whole words and of the begin of one that it breaks off in. -/
theorem PrefixFree.begins (free : PrefixFree code) {text : List σ} (message : List α)
    (part : text <+: encode code message) : ∃ heard cut, heard <+: message ∧ text = encode code heard ++ cut ∧
      ∀ letter, ¬ code letter <+: cut := by
  induction message generalizing text with
  | nil => exact ⟨[], [], List.nil_prefix, List.prefix_nil.mp part, free.open_nil⟩
  | cons letter message ih =>
    rw [encode_cons] at part
    by_cases whole : code letter <+: text
    · obtain ⟨rest, rfl⟩ := whole
      obtain ⟨heard, cut, inside, rfl, open_end⟩ := ih ((List.prefix_append_right_inj _).mp part)
      refine ⟨letter :: heard, cut, List.cons_prefix_cons.mpr ⟨rfl, inside⟩, ?_, open_end⟩
      rw [encode_cons, List.append_assoc]
    · have inside : text <+: code letter := by
        rcases List.prefix_or_prefix_of_prefix part (List.prefix_append _ _) with shorter | longer
        · exact shorter
        · exact absurd longer whole
      have proper : text ≠ code letter := fun same => whole (same ▸ List.prefix_rfl)
      exact ⟨[], text, List.nil_prefix, rfl, free.open_part inside proper⟩

section Decode
variable [DecidableEq σ]

/-- Each letter takes a symbol at least, so as many rounds as there are symbols are enough. -/
def decodeWithin (letters : List α) (code : α → List σ) : Nat → List σ → List α
  | 0, _ => []
  | rounds + 1, text =>
    match letters.find? fun letter => (code letter).isPrefixOf text with
    | none => []
    | some letter => letter :: decodeWithin letters code rounds (text.drop (code letter).length)

def decode (letters : List α) (code : α → List σ) (text : List σ) : List α :=
  decodeWithin letters code text.length text

variable {letters : List α}

theorem PrefixFree.found (free : PrefixFree code) (complete : ∀ letter, letter ∈ letters) (letter : α)
    (later : List σ) :
    (letters.find? fun other => (code other).isPrefixOf (code letter ++ later)) = some letter := by
  cases found : letters.find? fun other => (code other).isPrefixOf (code letter ++ later) with
  | none =>
    have missed := List.find?_eq_none.mp found letter (complete letter)
    simp at missed
  | some other =>
    have fits : code other <+: code letter ++ later := by simpa using List.find?_some found
    have same : other = letter := by
      rcases List.prefix_or_prefix_of_prefix fits (List.prefix_append (code letter) later) with shorter | longer
      · exact free.apart other letter shorter
      · exact (free.apart letter other longer).symm
    rw [same]

private theorem decodeWithin_encode (free : PrefixFree code) (complete : ∀ letter, letter ∈ letters) {rest : List σ}
    (open_end : ∀ letter, ¬ code letter <+: rest) (message : List α) {rounds : Nat}
    (enough : (encode code message ++ rest).length ≤ rounds) :
    decodeWithin letters code rounds (encode code message ++ rest) = message := by
  induction message generalizing rounds with
  | nil =>
    cases rounds with
    | zero => rfl
    | succ rounds =>
      have missed : (letters.find? fun letter => (code letter).isPrefixOf rest) = none := by
        apply List.find?_eq_none.mpr
        intro letter _
        simpa using open_end letter
      simp only [encode, List.flatMap_nil, List.nil_append, decodeWithin, missed]
  | cons letter message ih =>
    have positive : 0 < (code letter).length := List.length_pos_iff.mpr (free.filled letter)
    rw [encode_cons, List.append_assoc] at enough ⊢
    rw [List.length_append] at enough
    cases rounds with
    | zero => omega
    | succ rounds =>
      rw [decodeWithin, free.found complete letter]
      simp only [List.drop_left]
      rw [ih (by omega)]

/-- A text that breaks off inside a word yields the letters before that word. -/
theorem decode_encode (free : PrefixFree code) (complete : ∀ letter, letter ∈ letters) (message : List α)
    {rest : List σ} (open_end : ∀ letter, ¬ code letter <+: rest) :
    decode letters code (encode code message ++ rest) = message :=
  decodeWithin_encode free complete open_end message (Nat.le_refl _)

/-- What is read off a part of a text comes first in the message. -/
theorem decode_part (free : PrefixFree code) (complete : ∀ letter, letter ∈ letters) {text : List σ} (message : List α)
    (part : text <+: encode code message) : decode letters code text <+: message := by
  obtain ⟨heard, cut, inside, rfl, open_end⟩ := free.begins message part
  rw [decode_encode free complete heard open_end]
  exact inside

end Decode

end ZephyrTutorial.PrefixCode
