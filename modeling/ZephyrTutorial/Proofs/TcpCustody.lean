import ZephyrTutorial.Tcp

/-! What `tcpFunction` gets it gives back, on each way through it, and it uses nothing that it does
not hold. -/

namespace ZephyrTutorial.Proofs.TcpCustody
open ZephyrTutorial.Tcp CheckedBuffer Program

variable {failure : Int → Prop} {peer : List UInt8 → List UInt8 → Prop} {state : State} {sock : Int} {place : Nat}
  {fields : Hints} {base : List Resource}

private theorem wp_log {line : Log} {post : Unit → State → Prop}
    (logged : post () { state with log := state.log ++ [line] }) :
    (call (.log line)).wp (library failure peer) post state :=
  wp_request.mpr ⟨trivial, by rintro ⟨⟩ after rfl; exact logged⟩

private theorem wp_errno {post : Int → State → Prop} (read : post state.errno state) :
    (call .errno).wp (library failure peer) post state :=
  wp_request.mpr ⟨trivial, by rintro errno after ⟨rfl, rfl⟩; exact read⟩

private theorem wp_close {post : Unit → State → Prop} (own : state.own = .socket sock fields :: base)
    (fresh : ∀ fields, .socket sock fields ∉ base) (closed : ∀ errno, post () { state with own := base, errno }) :
    (call (.close sock)).wp (library failure peer) post state := by
  refine wp_request.mpr ⟨⟨fields, by rw [State.Open, own]; exact List.mem_cons_self⟩, ?_⟩
  rintro ⟨⟩ after ⟨other, errno, opened, rfl⟩
  rw [State.Open, own] at opened
  rcases List.mem_cons.mp opened with same | later
  · rw [own, same, List.erase_cons_head]
    exact closed errno
  · exact absurd later (fresh other)

private theorem wp_freeaddrinfo {post : Unit → State → Prop} {first : List Resource}
    (own : state.own = first ++ .addrinfo place fields :: base)
    (before : ∀ fields, .addrinfo place fields ∉ first) (fresh : ∀ fields, .addrinfo place fields ∉ base)
    (freed : post () { state with own := first ++ base }) :
    (call (.freeaddrinfo (some place))).wp (library failure peer) post state := by
  refine wp_request.mpr ⟨⟨fields, place, rfl, ?_⟩, ?_⟩
  · rw [own]
    exact List.mem_append_right first List.mem_cons_self
  · rintro ⟨⟩ after ⟨other, found, same, live, rfl⟩
    cases same
    rw [own] at live
    rcases List.mem_append.mp live with early | late
    · exact absurd early (before found)
    · rcases List.mem_cons.mp late with same | later
      · rw [own, same, List.erase_append_right _ (before fields), List.erase_cons_head]
        exact freed
      · exact absurd later (fresh found)

private theorem check_ok {α β : Type} (value : α) (next : α → Program Call Reply β) :
    check (.ok value) >>= next = next value := rfl

/-- What the report on the received text says about the connection. -/
structure Reported (peer : List UInt8 → List UInt8 → Prop) (lines : List Log) (state : State) (ret : Int)
    (text : List UInt8) : Prop where
  length : ret = state.received.length
  fits : state.received.length ≤ 1023
  text : text = CString.contents state.received
  answer : peer state.sent state.received
  sent : ∃ count ≤ msg.length, .sent count ∈ lines ∧ state.sent = msg.take count

/-- How the function leaves the state that it has been called in. -/
structure Ended (peer : List UInt8 → List UInt8 → Prop) (state : State) (value : Int) (final : State) : Prop where
  own : final.own = state.own
  value : value = 0 ∨ value = -final.errno
  log : ∃ lines, final.log = state.log ++ lines ∧
    ∀ ret text, .received ret text ∈ lines → Reported peer lines final ret text

theorem Ended.silent {value : Int} {final : State} {lines : List Log} (own : final.own = state.own)
    (returned : value = 0 ∨ value = -final.errno) (log : final.log = state.log ++ lines)
    (none : ∀ ret text, .received ret text ∉ lines) : Ended peer state value final :=
  ⟨own, returned, lines, log, fun ret text member => absurd member (none ret text)⟩

private theorem wp_fail {start : State} {lines : List Log} {line : Int → Log}
    (own : state.own = .socket sock fields :: start.own) (fresh : ∀ fields, .socket sock fields ∉ start.own)
    (log : state.log = start.log ++ lines) (quiet : ∀ ret text, .received ret text ∉ lines)
    (other : ∀ errno ret text, .received ret text ≠ line errno) :
    (do
      let errno ← call .errno
      call (.log (line errno))
      call (.close sock)
      let errno ← call .errno
      return -errno).wp (library failure peer) (Ended peer start) state := by
  rw [wp_bind]
  apply wp_errno
  rw [wp_bind]
  apply wp_log
  rw [wp_bind]
  apply wp_close (by exact own) fresh
  intro errno
  rw [wp_bind]
  apply wp_errno
  rw [wp_pure]
  have longer : state.log ++ [line state.errno] = start.log ++ (lines ++ [line state.errno]) := by
    rw [log, List.append_assoc]
  refine Ended.silent rfl (.inr rfl) (by exact longer) ?_
  intro ret text member
  rcases List.mem_append.mp member with early | last
  · exact quiet ret text early
  · exact other _ ret text (List.mem_singleton.mp last)

private theorem receive_wp {start : State} {lines : List Log} (own : state.own = .socket sock fields :: start.own)
    (fresh : ∀ fields, .socket sock fields ∉ start.own) (log : state.log = start.log ++ lines)
    (quiet : ∀ ret text, .received ret text ∉ lines) (first : state.received = [])
    (sent : ∃ count ≤ msg.length, .sent count ∈ lines ∧ state.sent = msg.take count) :
    (receive sock).wp (library failure peer) (Ended peer start) state := by
  rw [receive, wp_bind]
  refine wp_request.mpr ⟨⟨⟨fields, by rw [State.Open, own]; exact List.mem_cons_self⟩, by decide⟩, ?_⟩
  rintro ⟨ret, bytes⟩ after (⟨rfl, fits, answer, rfl⟩ | ⟨negative, errno, rfl⟩)
  · dsimp only
    rw [if_neg (by omega)]
    obtain ⟨filled, stored, holds⟩ := (Buffer.Holds.start : (.unwritten : Buffer UInt8 1024).Holds []).storeAll_ok
      (show (0 : Int) = ([] : List UInt8).length from rfl)
      (show [].length + bytes.length ≤ 1024 by rw [List.length_nil]; omega)
    rw [List.nil_append] at holds
    obtain ⟨ended, terminated, held⟩ := holds.store_next rfl (by omega) 0
    have printed : string ended.cells.toList = .ok (CString.contents bytes) := by
      rw [held.2, string_ok (by simp), CString.contents_terminated]
    rw [stored, check_ok, terminated, check_ok, printed, check_ok, wp_bind]
    apply wp_log
    rw [wp_bind]
    apply wp_close (by exact own) fresh
    intro errno
    rw [wp_pure]
    refine ⟨rfl, .inl rfl, lines ++ [.received bytes.length (CString.contents bytes)], ?_, ?_⟩
    · show state.log ++ _ = _
      rw [log, List.append_assoc]
    · intro ret text member
      rcases List.mem_append.mp member with early | last
      · exact absurd early (quiet ret text)
      · obtain ⟨rfl, rfl⟩ := Log.received.inj (List.mem_singleton.mp last)
        obtain ⟨count, bound, reported, accepted⟩ := sent
        refine ⟨?_, ?_, ?_, answer, count, bound, List.mem_append_left _ reported, accepted⟩
        · show _ = ((state.received ++ bytes).length : Int)
          rw [first, List.nil_append]
        · show (state.received ++ bytes).length ≤ 1023
          rw [first, List.nil_append]
          exact fits
        · show _ = CString.contents (state.received ++ bytes)
          rw [first, List.nil_append]
  · dsimp only
    rw [if_pos negative]
    exact wp_fail own fresh log quiet nofun

private theorem converse_wp {start : State} (own : state.own = .socket sock fields :: start.own)
    (fresh : ∀ fields, .socket sock fields ∉ start.own) (log : state.log = start.log ++ [.connected])
    (first : state.sent = [] ∧ state.received = []) :
    (converse sock).wp (library failure peer) (Ended peer start) state := by
  have whole : CString.contents msg = msg := CString.contents_of_nulFree (by decide +kernel)
  rw [converse, wp_bind]
  refine wp_request.mpr ⟨⟨fields, by rw [State.Open, own]; exact List.mem_cons_self⟩, ?_⟩
  rintro ret after (⟨positive, bound, rfl⟩ | ⟨negative, errno, rfl⟩)
  · obtain ⟨count, rfl⟩ := Int.eq_ofNat_of_zero_le positive
    rw [if_neg (Int.not_lt.mpr positive), wp_bind]
    apply wp_log
    rw [whole] at bound ⊢
    have longer : state.log ++ [.sent count] = start.log ++ [.connected, .sent count] := by
      rw [log, List.append_assoc]
      rfl
    refine receive_wp (by exact own) fresh (by exact longer) (by simp) first.2 ?_
    refine ⟨count, Int.ofNat_le.mp bound, by simp, ?_⟩
    show state.sent ++ _ = _
    rw [first.1]
    rfl
  · rw [if_pos negative]
    exact wp_fail own fresh log (by simp) nofun

private theorem tcpFunction_wp (negative : ∀ code, failure code → code < 0) (state : State) :
    tcpFunction.wp (library failure peer) (Ended peer state) state := by
  rw [tcpFunction, wp_bind]
  refine wp_request.mpr ⟨trivial, ?_⟩
  rintro ⟨ret, res⟩ after (⟨rfl, place, rfl, fresh, rfl⟩ | ⟨failed, rfl, rfl⟩)
  · dsimp only
    rw [if_neg (by omega), wp_bind]
    refine wp_request.mpr ⟨⟨hints, place, rfl, List.mem_cons_self⟩, ?_⟩
    rintro fields after ⟨live, rfl⟩
    rw [wp_bind]
    refine wp_request.mpr ⟨trivial, ?_⟩
    rintro sock after (⟨positive, unused, rfl⟩ | ⟨negative, errno, rfl⟩)
    · rw [if_neg (Int.not_lt.mpr positive), wp_bind]
      refine wp_request.mpr ⟨⟨fields, ?_, List.mem_cons_self⟩, ?_⟩
      · obtain ⟨place, same, found⟩ := live
        exact ⟨place, same, List.mem_cons_of_mem _ found⟩
      have other : ∀ found, .addrinfo place found ∉ [Resource.socket sock fields] := by simp
      have later : ∀ found, .socket sock found ∉ state.own := fun found member =>
        unused found (List.mem_cons_of_mem _ member)
      rintro ret after (⟨rfl, rfl⟩ | ⟨negative, errno, rfl⟩)
      · rw [wp_bind]
        apply wp_freeaddrinfo rfl other fresh
        rw [if_neg (Int.lt_irrefl 0), wp_bind]
        apply wp_log
        exact converse_wp rfl later rfl ⟨rfl, rfl⟩
      · rw [wp_bind]
        apply wp_freeaddrinfo rfl other fresh
        rw [if_pos negative, wp_bind]
        apply wp_log
        rw [wp_bind]
        apply wp_close rfl later
        intro errno
        rw [wp_pure]
        exact Ended.silent rfl (.inl rfl) rfl (by simp)
    · rw [if_pos negative, wp_bind]
      apply wp_log
      rw [wp_bind]
      apply wp_freeaddrinfo (show _ = [] ++ _ from rfl) (fun _ => List.not_mem_nil) fresh
      rw [wp_pure]
      exact Ended.silent rfl (.inl rfl) rfl (by simp)
  · dsimp only
    rw [if_pos (negative ret failed), wp_bind]
    apply wp_log
    rw [wp_pure]
    exact Ended.silent rfl (.inl rfl) rfl (by simp)

private theorem exists_fresh (own : List Resource) :
    ∃ bound, ∀ place, bound ≤ place → ∀ fields, .addrinfo place fields ∉ own := by
  induction own with
  | nil => exact ⟨0, fun _ _ _ => List.not_mem_nil⟩
  | cons resource own ih =>
    obtain ⟨bound, fresh⟩ := ih
    cases resource with
    | addrinfo used other =>
      refine ⟨max bound (used + 1), fun place above fields member => ?_⟩
      rcases List.mem_cons.mp member with same | later
      · cases same
        omega
      · exact fresh place (by omega) fields later
    | socket sock other =>
      refine ⟨bound, fun place above fields member => ?_⟩
      rcases List.mem_cons.mp member with same | later
      · cases same
      · exact fresh place above fields later

private theorem library_answers (operation : Call) (state : State)
    (allowed : (library failure peer).Allowed operation state) :
    ∃ reply after, (library failure peer).Answers operation state reply after := by
  cases operation with
  | getaddrinfo target port hints =>
    obtain ⟨place, fresh⟩ := exists_fresh state.own
    exact ⟨((0 : Int), some place), _, .inl ⟨rfl, place, rfl, fresh place (Nat.le_refl place), rfl⟩⟩
  | fields res =>
    obtain ⟨fields, live⟩ := allowed
    exact ⟨fields, state, live, rfl⟩
  | socket fields => exact ⟨(-1 : Int), _, .inr ⟨(by decide : (-1 : Int) < 0), 0, rfl⟩⟩
  | connect sock res => exact ⟨(-1 : Int), _, .inr ⟨(by decide : (-1 : Int) < 0), 0, rfl⟩⟩
  | freeaddrinfo res =>
    obtain ⟨fields, place, same, live⟩ := allowed
    exact ⟨(), _, place, fields, same, live, rfl⟩
  | send sock bytes => exact ⟨(-1 : Int), _, .inr ⟨(by decide : (-1 : Int) < 0), 0, rfl⟩⟩
  | recv sock room => exact ⟨((-1 : Int), []), _, .inr ⟨(by decide : (-1 : Int) < 0), 0, rfl⟩⟩
  | close sock =>
    obtain ⟨fields, opened⟩ := allowed
    exact ⟨(), _, fields, 0, opened, rfl⟩
  | errno => exact ⟨state.errno, state, rfl, rfl⟩
  | log line => exact ⟨(), _, rfl⟩
  | fault => exact allowed.elim

/-- Whatever the library and the server answer, each call is made with what the function holds, the buffer
is neither overrun nor read where nothing has been stored, and the address list and the socket are given
back on each way out. It depends only on the sign of the codes for a lookup that has failed: one that is
not negative lets the null list through. -/
theorem safe_exactly (failure : Int → Prop) (peer : List UInt8 → List UInt8 → Prop) :
    (∀ state, Safe (library failure peer) (Ended peer state) tcpFunction state) ↔
      ∀ code, failure code → code < 0 := by
  constructor
  · intro safe code failed
    by_contra accepted
    have holds := safe_iff.mp (safe ⟨[], 0, [], [], []⟩)
    rw [tcpFunction, wp_bind] at holds
    have missing := (wp_request.mp holds).2 (code, none) _ (.inr ⟨failed, rfl, rfl⟩)
    dsimp only at missing
    rw [if_neg accepted, wp_bind] at missing
    obtain ⟨fields, place, same, live⟩ := missing.1
    cases same
  · exact fun negative state => safe_iff.mpr (tcpFunction_wp negative state)

/-- With a library that answers, the function comes back to `main`. -/
theorem returns (negative : ∀ code, failure code → code < 0) (state : State) :
    ∃ value final, Reaches (library failure peer) tcpFunction state (.pure value) final ∧
      Ended peer state value final :=
  (safe_iff.mpr (tcpFunction_wp negative state)).returns library_answers

/-- A server that sends back what it gets. -/
def echo (sent received : List UInt8) : Prop := received <+: sent

/-- Of the message, the text that is reported is as much as has come back, and not more than has been sent. -/
def Echoed (state : State) (_ : Int) (final : State) : Prop :=
  ∃ lines, final.log = state.log ++ lines ∧ ∀ (ret : Int) text, .received ret text ∈ lines →
    ∃ count length : Nat, .sent count ∈ lines ∧ ret = length ∧ length ≤ count ∧ length ≤ msg.length ∧
      text = msg.take length

theorem echoed (failure : Int → Prop) (negative : ∀ code, failure code → code < 0) (state : State) :
    Safe (library failure echo) (Echoed state) tcpFunction state := by
  refine safe_iff.mpr (wp_mono (tcpFunction_wp negative state) ?_)
  rintro value final ⟨_, _, lines, log, reported⟩
  refine ⟨lines, log, fun ret text member => ?_⟩
  obtain ⟨length, fits, printed, answer, count, bound, reported, sent⟩ := reported ret text member
  have short : final.received.length ≤ count := by
    have longest := answer.length_le
    rw [sent, List.length_take] at longest
    omega
  have whole : final.received <+: msg := answer.trans (sent ▸ List.take_prefix count msg)
  have received : final.received = msg.take final.received.length := List.prefix_iff_eq_take.mp whole
  have nulFree : 0 ∉ final.received := by
    rw [received]
    exact fun nul => absurd (List.mem_of_mem_take nul) (by decide +kernel)
  refine ⟨count, final.received.length, reported, length, short, whole.length_le, ?_⟩
  rw [printed, CString.contents_of_nulFree nulFree]
  exact received

theorem echoed_documented :
    Safe (library (fun code => code = -2) echo) (Echoed ⟨[.socket 0 hints], 0, [], [], []⟩) tcpFunction
      ⟨[.socket 0 hints], 0, [], [], []⟩ :=
  echoed _ (by rintro code rfl; decide) _

end ZephyrTutorial.Proofs.TcpCustody
