import Mathlib.Data.List.Basic
import Mathlib.Data.List.DropRight

/-! Text as a list of characters: trimmed, cut at separators, and read as number literals. -/

namespace ZephyrTutorial.Literals

def Blank (text : List Char) : Prop := ∀ char ∈ text, char = ' '

instance (text : List Char) : Decidable (Blank text) := List.decidableBAll (· = ' ') text

def trim (text : List Char) : List Char := (text.dropWhile (· == ' ')).rdropWhile (· == ' ')

/-- A text that neither starts nor ends with a space. -/
def Trimmed (text : List Char) : Prop := text.head? ≠ some ' ' ∧ text.getLast? ≠ some ' '

theorem Blank.not_mem {text : List Char} (blank : Blank text) {char : Char} (other : char ≠ ' ') : char ∉ text :=
  fun member => other (blank char member)

private theorem dropWhile_blank {lead : List Char} (blank : Blank lead) (rest : List Char) :
    (lead ++ rest).dropWhile (· == ' ') = rest.dropWhile (· == ' ') := by
  apply List.dropWhile_append_of_pos
  intro char member
  rw [blank char member]
  rfl

private theorem trim_eq_nil {text : List Char} : trim text = [] ↔ Blank text := by
  constructor
  · intro empty char member
    have spaces := List.rdropWhile_eq_nil_iff.mp empty
    cases rest : text.dropWhile (· == ' ') with
    | nil => simpa using List.dropWhile_eq_nil_iff.mp rest char member
    | cons first later =>
      -- The first character that is left is no space.
      have other := List.head?_dropWhile_not (· == ' ') text
      rw [rest] at other spaces
      exact absurd (spaces first List.mem_cons_self) (by simpa using other)
  · intro blank
    have dropped := dropWhile_blank blank []
    rw [List.append_nil] at dropped
    rw [trim, dropped]
    rfl

private theorem trim_padded {lead text tail : List Char} (before : Blank lead) (trimmed : Trimmed text)
    (after : Blank tail) : trim (lead ++ text ++ tail) = text := by
  rw [trim, List.append_assoc, dropWhile_blank before]
  rcases List.eq_nil_or_concat' text with rfl | ⟨front, last, rfl⟩
  · have dropped := dropWhile_blank after []
    rw [List.append_nil] at dropped
    rw [List.nil_append, dropped]
    rfl
  · have ends : last ≠ ' ' := by
      rintro rfl
      exact trimmed.2 List.getLast?_concat
    have starts : (front ++ [last] ++ tail).dropWhile (· == ' ') = front ++ [last] ++ tail := by
      apply List.dropWhile_eq_self_iff.mpr
      cases front with
      | nil => simpa using ends
      | cons first front => simpa using fun same : first = ' ' => trimmed.1 (by simp [same])
    have cut : tail.reverse.dropWhile (· == ' ') = [] := by
      apply List.dropWhile_eq_nil_iff.mpr
      intro char member
      rw [after char (List.mem_reverse.mp member)]
      rfl
    rw [starts, List.rdropWhile, List.reverse_append, List.dropWhile_append, cut]
    simp [ends]

/-- What is not a space at both ends is trimmed, whatever stands in the middle. -/
theorem trimmed_between (first middle last : List Char) (starts : ∃ char ∈ first.head?, char ≠ ' ')
    (ends : ∃ char ∈ last.getLast?, char ≠ ' ') : Trimmed (first ++ middle ++ last) := by
  obtain ⟨head, heads, notHead⟩ := starts
  obtain ⟨final, finals, notFinal⟩ := ends
  constructor
  · rw [List.append_assoc, List.head?_append, Option.mem_def.mp heads, Option.some_or]
    exact fun same => notHead (Option.some.inj same)
  · rw [List.getLast?_append, Option.mem_def.mp finals, Option.some_or]
    exact fun same => notFinal (Option.some.inj same)

theorem trim_after {text tail : List Char} (trimmed : Trimmed text) (after : Blank tail) : trim (text ++ tail) = text := by
  have padded := trim_padded (List.forall_mem_nil _ : Blank []) trimmed after
  rwa [List.nil_append] at padded

theorem trim_before {lead text : List Char} (before : Blank lead) (trimmed : Trimmed text) : trim (lead ++ text) = text := by
  have padded := trim_padded before trimmed (List.forall_mem_nil _ : Blank [])
  rwa [List.append_nil] at padded

section Separators
variable {α : Type}

private theorem intercalate_lead (separator lead first : List α) (rest : List (List α)) :
    separator.intercalate ((lead ++ first) :: rest) = lead ++ separator.intercalate (first :: rest) := by
  cases rest with
  | nil => simp
  | cons second rest => simp [List.intercalate_cons_cons]

/-- What follows the separating character belongs to the next item. -/
private theorem intercalate_gap (char : α) (gap first : List α) (rest : List (List α)) :
    (char :: gap).intercalate (first :: rest) = [char].intercalate (first :: rest.map (gap ++ ·)) := by
  induction rest generalizing first with
  | nil => simp
  | cons second rest ih =>
    rw [List.intercalate_cons_cons, List.map_cons, List.intercalate_cons_cons, intercalate_lead, ih]
    simp

theorem mem_intercalate {separator : List α} {items : List (List α)} {char : α}
    (member : char ∈ separator.intercalate items) : char ∈ separator ∨ ∃ item ∈ items, char ∈ item := by
  induction items with
  | nil => cases member
  | cons first rest ih =>
    cases rest with
    | nil => exact .inr ⟨first, List.mem_cons_self, by simpa using member⟩
    | cons second rest =>
      rw [List.intercalate_cons_cons, List.mem_append, List.mem_append] at member
      rcases member with (member | member) | member
      · exact .inr ⟨first, List.mem_cons_self, member⟩
      · exact .inl member
      · rcases ih member with inside | ⟨item, listed, inside⟩
        · exact .inl inside
        · exact .inr ⟨item, List.mem_cons_of_mem _ listed, inside⟩

variable [DecidableEq α]

theorem splitOn_joined {char : α} {lead gap first : List α} {rest : List (List α)} (noLead : char ∉ lead)
    (noGap : char ∉ gap) (noItem : ∀ item ∈ first :: rest, char ∉ item) :
    (lead ++ (char :: gap).intercalate (first :: rest)).splitOn char =
      (lead ++ first) :: rest.map (gap ++ ·) := by
  rw [intercalate_gap, ← intercalate_lead]
  apply List.splitOn_intercalate
  · intro item member
    rcases List.mem_cons.mp member with rfl | member
    · simpa [noLead] using noItem first List.mem_cons_self
    · obtain ⟨original, inside, rfl⟩ := List.mem_map.mp member
      simpa [noGap] using noItem original (List.mem_cons_of_mem _ inside)
  · exact List.cons_ne_nil _ _

theorem takeWhile_until {char : α} {before : List α} (absent : char ∉ before) (after : List α) :
    (before ++ char :: after).takeWhile (· != char) = before := by
  rw [List.takeWhile_append_of_pos (by
    intro other member
    simpa using fun same : other = char => absent (same ▸ member))]
  simp

theorem dropWhile_until {char : α} {before : List α} (absent : char ∉ before) (after : List α) :
    (before ++ char :: after).dropWhile (· != char) = char :: after := by
  rw [List.dropWhile_append_of_pos (by
    intro other member
    simpa using fun same : other = char => absent (same ▸ member))]
  simp

/-- What stands between the first opening character and the next closing one. -/
def between (opening closing : α) (text : List α) : List α :=
  ((text.dropWhile (· != opening)).drop 1).takeWhile (· != closing)

theorem between_eq {opening closing : α} {before content : List α} (after : List α) (noOpening : opening ∉ before)
    (noClosing : closing ∉ content) :
    between opening closing (before ++ opening :: (content ++ closing :: after)) = content := by
  rw [between, dropWhile_until noOpening, List.drop_one, List.tail_cons, takeWhile_until noClosing]

end Separators

def hexDigit (char : Char) : Option Nat :=
  if char.isDigit then some (char.toNat - 48)
  else if 'a' ≤ char ∧ char ≤ 'f' then some (char.toNat - 87)
  else if 'A' ≤ char ∧ char ≤ 'F' then some (char.toNat - 55)
  else none

def hexDigits (value : Nat) (digits : List Char) : Option Nat :=
  digits.foldlM (fun value char => (hexDigit char).map (16 * value + ·)) value

/-- A hexadecimal literal has at least one digit. -/
def readHex : List Char → Option Nat
  | '0' :: 'x' :: digit :: digits => hexDigits 0 (digit :: digits)
  | _ => none

def readDecimal (text : List Char) : Option Nat :=
  if text ≠ [] ∧ text.all Char.isDigit then some (Nat.ofDigitChars 10 text 0) else none

/-- A hexadecimal literal, filled up with zeros to the given number of digits. -/
def hexLiteral (width value : Nat) : List Char :=
  let digits := Nat.toDigits 16 value
  '0' :: 'x' :: (List.replicate (width - digits.length) '0' ++ digits)

private theorem hexDigit_digitChar {digit : Nat} (small : digit < 16) : hexDigit digit.digitChar = some digit := by
  have all : ∀ digit < 16, hexDigit (Nat.digitChar digit) = some digit := by decide
  exact all digit small

private theorem hexDigits_append (value : Nat) (first rest : List Char) :
    hexDigits value (first ++ rest) = (hexDigits value first).bind (hexDigits · rest) :=
  List.foldlM_append

private theorem hexDigits_zeros (count : Nat) : hexDigits 0 (List.replicate count '0') = some 0 := by
  induction count with
  | zero => rfl
  | succ count ih => exact ih

theorem hexDigits_toDigits (value : Nat) : hexDigits 0 (Nat.toDigits 16 value) = some value := by
  induction value using Nat.strong_induction_on with
  | _ value ih =>
    rcases Nat.lt_or_ge value 16 with small | large
    · rw [Nat.toDigits_of_lt_base small]
      simp [hexDigits, hexDigit_digitChar small]
    · have last : hexDigit (value % 16).digitChar = some (value % 16) :=
        hexDigit_digitChar (Nat.mod_lt _ (by decide))
      rw [Nat.toDigits_of_base_le (by decide) large, hexDigits_append, ih (value / 16) (by omega)]
      simp [hexDigits, last, Nat.div_add_mod]

theorem readHex_hexLiteral (width value : Nat) : readHex (hexLiteral width value) = some value := by
  have read : hexDigits 0 (List.replicate (width - (Nat.toDigits 16 value).length) '0' ++ Nat.toDigits 16 value) =
      some value := by
    rw [hexDigits_append, hexDigits_zeros, Option.bind_some, hexDigits_toDigits]
  unfold hexLiteral
  cases shape : List.replicate (width - (Nat.toDigits 16 value).length) '0' ++ Nat.toDigits 16 value with
  | nil => exact absurd (List.append_eq_nil_iff.mp shape).2 Nat.toDigits_ne_nil
  | cons digit digits =>
    rw [shape] at read
    simp only [shape]
    exact read

theorem not_mem_decimal {value : Nat} {char : Char} (other : char.isDigit = false) : char ∉ Nat.toDigits 10 value := by
  intro member
  rw [Nat.isDigit_of_mem_toDigits (by decide) (by decide) member] at other
  cases other

theorem readDecimal_toDigits (value : Nat) : readDecimal (Nat.toDigits 10 value) = some value := by
  have digits : (Nat.toDigits 10 value).all Char.isDigit = true := by
    apply List.all_eq_true.mpr
    intro char member
    exact Nat.isDigit_of_mem_toDigits (by decide) (by decide) member
  rw [readDecimal, if_pos ⟨Nat.toDigits_ne_nil, digits⟩, Nat.ofDigitChars_ten_toDigits]

/-- Every character of a hexadecimal literal is one of the sixteen digits or the `x`. -/
theorem hexLiteral_chars {width value : Nat} {char : Char} (member : char ∈ hexLiteral width value) :
    char = 'x' ∨ ∃ digit < 16, char = Nat.digitChar digit := by
  have digits (value : Nat) {char : Char} (member : char ∈ Nat.toDigits 16 value) :
      ∃ digit < 16, char = Nat.digitChar digit := by
    induction value using Nat.strong_induction_on with
    | _ value ih =>
      rcases Nat.lt_or_ge value 16 with small | large
      · rw [Nat.toDigits_of_lt_base small, List.mem_singleton] at member
        exact ⟨value, small, member⟩
      · rw [Nat.toDigits_of_base_le (by decide) large, List.mem_append, List.mem_singleton] at member
        rcases member with member | member
        · exact ih (value / 16) (by omega) member
        · exact ⟨value % 16, Nat.mod_lt _ (by decide), member⟩
  simp only [hexLiteral, List.mem_cons, List.mem_append, List.mem_replicate] at member
  rcases member with zero | marker | ⟨_, zero⟩ | member
  · exact .inr ⟨0, by decide, zero⟩
  · exact .inl marker
  · exact .inr ⟨0, by decide, zero⟩
  · exact .inr (digits value member)

theorem not_mem_hexLiteral {width value : Nat} {char : Char} (other : char.isAlphanum = false) :
    char ∉ hexLiteral width value := by
  have digits : ∀ digit < 16, (Nat.digitChar digit).isAlphanum = true := by decide
  intro member
  rcases hexLiteral_chars member with rfl | ⟨digit, small, rfl⟩
  · cases other
  · exact absurd ((digits digit small).symm.trans other) nofun

theorem trimmed_of_spaceless {text : List Char} (spaceless : ' ' ∉ text) : Trimmed text :=
  ⟨fun starts => spaceless (List.mem_of_mem_head? starts), fun ends => spaceless (List.mem_of_getLast? ends)⟩

/-- A list of hexadecimal literals between commas. Blank content has no items. -/
def readList (content : List Char) : Option (List Nat) :=
  if trim content = [] then some [] else (content.splitOn ',').mapM (fun item => readHex (trim item))

theorem readList_joined {lead gap : List Char} (before : Blank lead) (inside : Blank gap) (width : Nat)
    (values : List Nat) :
    readList (lead ++ (',' :: gap).intercalate (values.map (hexLiteral width))) = some values := by
  cases values with
  | nil =>
    rw [List.map_nil, List.intercalate_nil, List.append_nil, readList, if_pos (trim_eq_nil.mpr before)]
  | cons first rest =>
    have comma (value : Nat) : ',' ∉ hexLiteral width value := not_mem_hexLiteral rfl
    have spaceless (value : Nat) : ' ' ∉ hexLiteral width value := not_mem_hexLiteral rfl
    have item {padding : List Char} (blank : Blank padding) (value : Nat) :
        readHex (trim (padding ++ hexLiteral width value)) = some value := by
      rw [trim_before blank (trimmed_of_spaceless (spaceless value)), readHex_hexLiteral]
    have items : ((rest.map (hexLiteral width)).map (gap ++ ·)).mapM (fun item => readHex (trim item)) =
        some rest := by
      induction rest with
      | nil => rfl
      | cons second rest ih =>
        rw [List.map_cons, List.map_cons, List.mapM_cons, item inside second, ih]
        rfl
    have filled : trim (lead ++ (',' :: gap).intercalate ((first :: rest).map (hexLiteral width))) ≠ [] := by
      intro empty
      have zero : '0' ∈ lead ++ (',' :: gap).intercalate ((first :: rest).map (hexLiteral width)) := by
        rw [List.map_cons, ← intercalate_lead, intercalate_gap]
        cases rest <;> simp [hexLiteral]
      exact absurd (trim_eq_nil.mp empty '0' zero) (by decide)
    have noComma : ∀ literal ∈ (first :: rest).map (hexLiteral width), ',' ∉ literal := by
      intro literal member
      obtain ⟨value, _, rfl⟩ := List.mem_map.mp member
      exact comma value
    rw [readList, if_neg filled, List.map_cons, splitOn_joined (before.not_mem (by decide))
      (inside.not_mem (by decide)) noComma, List.mapM_cons, item before first, items]
    rfl

end ZephyrTutorial.Literals
