import Mathlib.Data.List.Basic

/-! C strings as the C library sees them in a byte buffer. A read past the end of
the given list stands for the terminating NUL of a string literal. -/

namespace ZephyrTutorial.CString

def contents (buffer : List UInt8) : List UInt8 := buffer.takeWhile (· != 0)

def strlen : List UInt8 → Nat
  | [] => 0
  | c :: rest => if c = 0 then 0 else strlen rest + 1

/-- `tolower` in the C locale changes the 26 ASCII capitals only. -/
def tolower (c : UInt8) : UInt8 := if 65 ≤ c ∧ c ≤ 90 then c + 32 else c

def strcasecmp : List UInt8 → List UInt8 → Int
  | [], [] => 0
  | [], b :: _ => -((tolower b).toNat : Int)
  | a :: _, [] => (tolower a).toNat
  | a :: first, b :: second =>
    if a ≠ 0 ∧ tolower a = tolower b then strcasecmp first second
    else ((tolower a).toNat : Int) - (tolower b).toNat

@[simp]
theorem contents_nil : contents [] = [] := rfl

@[simp]
theorem contents_nul (rest : List UInt8) : contents (0 :: rest) = [] := rfl

theorem contents_cons {c : UInt8} (rest : List UInt8) (other : c ≠ 0) :
    contents (c :: rest) = c :: contents rest := by
  simp [contents, other]

theorem contents_terminated (text after : List UInt8) :
    contents (text ++ 0 :: after) = contents text := by
  induction text with
  | nil => rfl
  | cons c text ih =>
    by_cases nul : c = 0
    · subst nul; rfl
    · rw [List.cons_append, contents_cons _ nul, contents_cons _ nul, ih]

theorem contents_of_nulFree {text : List UInt8} (nulFree : 0 ∉ text) : contents text = text := by
  induction text with
  | nil => rfl
  | cons c text ih =>
    simp only [List.mem_cons, not_or] at nulFree
    rw [contents_cons _ (Ne.symm nulFree.1), ih nulFree.2]

theorem strlen_eq (buffer : List UInt8) : strlen buffer = (contents buffer).length := by
  induction buffer with
  | nil => rfl
  | cons c rest ih =>
    by_cases nul : c = 0
    · subst nul; rfl
    · simp [strlen, nul, contents_cons _ nul, ih]

theorem strlen_pos (buffer : List UInt8) : 0 < strlen buffer ↔ contents buffer ≠ [] := by
  rw [strlen_eq]
  exact List.length_pos_iff

@[simp]
theorem tolower_nul : tolower 0 = 0 := rfl

theorem tolower_eq_zero {c : UInt8} : tolower c = 0 ↔ c = 0 := by
  unfold tolower
  split
  next capital =>
    have low : 65 ≤ c.toNat := UInt8.le_iff_toNat_le.mp capital.1
    have high : c.toNat ≤ 90 := UInt8.le_iff_toNat_le.mp capital.2
    rw [← UInt8.toNat_inj, ← UInt8.toNat_inj, UInt8.toNat_add]
    simp only [UInt8.toNat_ofNat]
    omega
  next => rfl

private theorem toNat_eq_zero {c : UInt8} : c.toNat = 0 ↔ c = 0 := by
  rw [← UInt8.toNat_inj]
  rfl

theorem strcasecmp_eq_zero (first second : List UInt8) :
    strcasecmp first second = 0 ↔ (contents first).map tolower = (contents second).map tolower := by
  fun_induction strcasecmp first second with
  | case1 => simp
  | case2 b rest =>
    by_cases nul : b = 0
    · subst nul; simp
    · have lower : (tolower b).toNat ≠ 0 := by rw [ne_eq, toNat_eq_zero, tolower_eq_zero]; exact nul
      simp only [contents_nil, contents_cons rest nul]
      simpa using lower
  | case3 a rest =>
    by_cases nul : a = 0
    · subst nul; simp
    · have lower : (tolower a).toNat ≠ 0 := by rw [ne_eq, toNat_eq_zero, tolower_eq_zero]; exact nul
      simp only [contents_nil, contents_cons rest nul]
      simpa using lower
  | case4 a first b second same ih =>
    have other : b ≠ 0 := by
      intro nul
      exact same.1 (tolower_eq_zero.mp (by rw [same.2, nul]; rfl))
    rw [ih, contents_cons _ same.1, contents_cons _ other]
    simp [same.2]
  | case5 a first b second differ =>
    have split : ((tolower a).toNat : Int) - (tolower b).toNat = 0 ↔ tolower a = tolower b := by
      rw [← UInt8.toNat_inj]
      omega
    rw [split]
    by_cases nul : a = 0
    · subst nul
      rw [tolower_nul, eq_comm, tolower_eq_zero]
      by_cases other : b = 0
      · subst other; simp
      · simp [contents_cons second other, other]
    · have unequal : tolower a ≠ tolower b := fun same => differ ⟨nul, same⟩
      by_cases other : b = 0
      · subst other
        simp [contents_cons first nul, tolower_eq_zero, nul]
      · simp [contents_cons first nul, contents_cons second other, unequal]

end ZephyrTutorial.CString
