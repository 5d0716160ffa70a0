import ZephyrTutorial.ModelExport

/-! A header can be read back: its braces hold the bytes, its constant their number. The proof
sees the three exporters as one, with spaces in different places. -/

namespace ZephyrTutorial.Proofs.ModelExportRoundTrip
open ZephyrTutorial.ModelExport Literals

/-- Where the punctuation of an exporter has its spaces. -/
structure Spacing where
  beforeEquals : List Char
  afterEquals : List Char
  lead : List Char
  gap : List Char
  blank : Blank (beforeEquals ++ afterEquals ++ lead ++ gap)

namespace Spacing
variable (spacing : Spacing)

theorem blanks : Blank spacing.beforeEquals ∧ Blank spacing.afterEquals ∧ Blank spacing.lead ∧ Blank spacing.gap := by
  have blank := spacing.blank
  simp only [Blank, List.mem_append] at blank ⊢
  exact ⟨fun char member => blank char (.inl (.inl (.inl member))),
    fun char member => blank char (.inl (.inl (.inr member))),
    fun char member => blank char (.inl (.inr member)), fun char member => blank char (.inr member)⟩

/-- The text up to the equals sign of the array, and up to that of its length. -/
def arrayPart (arrayname : List Char) : List Char :=
  arrayWords ++ arrayname ++ ['[', ']'] ++ spacing.beforeEquals

def lengthPart (arrayname : List Char) : List Char :=
  lengthWords ++ arrayname ++ lengthSuffix ++ spacing.beforeEquals

def content (array : List UInt8) : List Char := spacing.lead ++ (',' :: spacing.gap).intercalate (hexArray array)

def arrayLine (array : List UInt8) (arrayname : List Char) : List Char :=
  spacing.arrayPart arrayname ++ '=' ::
    (spacing.afterEquals ++ '\x7b' :: (spacing.content array ++ ['\x7d', ';']))

def lengthLine (array : List UInt8) (arrayname : List Char) : List Char :=
  spacing.lengthPart arrayname ++ '=' :: (spacing.afterEquals ++ Nat.toDigits 10 array.length ++ [';'])

def header (array : List UInt8) (arrayname : List Char) : List Char :=
  spacing.arrayLine array arrayname ++ '\n' :: (spacing.lengthLine array arrayname ++ ['\n'])

end Spacing

private theorem writeHeader_spaced {spacing : Spacing} {declare separator assign : String}
    (declares : declare.toList = ['[', ']'] ++ spacing.beforeEquals ++ '=' ::
      (spacing.afterEquals ++ '\x7b' :: spacing.lead))
    (separates : separator.toList = ',' :: spacing.gap)
    (assigns : assign.toList = spacing.beforeEquals ++ '=' :: spacing.afterEquals) :
    writeHeader declare separator assign = spacing.header := by
  have closes : "\x7d;\n".toList = ['\x7d', ';', '\n'] := by decide
  have ends : ";\n".toList = [';', '\n'] := by decide
  funext array arrayname
  simp only [writeHeader, declares, separates, assigns, closes, ends, Spacing.header, Spacing.arrayLine,
    Spacing.arrayPart, Spacing.content, Spacing.lengthLine, Spacing.lengthPart, List.append_assoc, List.cons_append,
    List.nil_append]

/-- Each exporter is the common header with its own spaces. -/
private theorem header_spaced (exporter : Exporter) : ∃ spacing : Spacing, exporter.header = spacing.header := by
  cases exporter with
  | mcc =>
    exact ⟨⟨[], [], [' '], [], by decide⟩, writeHeader_spaced (by decide) (by decide) (by decide)⟩
  | sineModelTflite =>
    exact ⟨⟨[' '], [' '], [], [], by decide⟩, writeHeader_spaced (by decide) (by decide) (by decide)⟩
  | linearModelTflite =>
    exact ⟨⟨[' '], [' '], [], [' '], by decide⟩, writeHeader_spaced (by decide) (by decide) (by decide)⟩

/-- The characters other than letters and digits that stand inside the parts of a header. -/
def separators : List Char := ['_', ' ', ',', '[', ']']

/-- The punctuation that ends a part of a header: no part has it inside. -/
structure Punctuation (char : Char) : Prop where
  symbol : char.isAlphanum = false
  other : char ∉ separators

private theorem brace_punctuation : Punctuation '\x7b' ∧ Punctuation '\x7d' := ⟨⟨rfl, by decide⟩, ⟨rfl, by decide⟩⟩

private theorem newline_punctuation : Punctuation '\n' := ⟨rfl, by decide⟩

private theorem equals_punctuation : Punctuation '=' := ⟨rfl, by decide⟩

section Punctuation
variable {char : Char} (punctuation : Punctuation char)
include punctuation

private theorem Punctuation.ne_separator {other : Char} (separator : other ∈ separators) : char ≠ other :=
  fun same => punctuation.other (same ▸ separator)

private theorem Punctuation.ne_space : char ≠ ' ' := punctuation.ne_separator (by decide)

private theorem Punctuation.not_mem_words {text : List Char}
    (words : text.all (fun char => char.isAlphanum || separators.contains char) = true) : char ∉ text := by
  intro member
  have listed := List.all_eq_true.mp words char member
  rw [punctuation.symbol, Bool.false_or, List.contains_iff_mem] at listed
  exact punctuation.other listed

private theorem Punctuation.not_mem_name (name : Identifier) : char ∉ name.chars := by
  intro member
  rcases name.word char member with letter | underscore
  · exact absurd (letter.symm.trans punctuation.symbol) nofun
  · exact punctuation.ne_separator (by decide) underscore

end Punctuation

variable (spacing : Spacing) (array : List UInt8) (name : Identifier)

private theorem not_mem_arrayPart {char : Char} (punctuation : Punctuation char) :
    char ∉ spacing.arrayPart name.chars := by
  simp only [Spacing.arrayPart, List.mem_append, not_or]
  refine ⟨⟨⟨?_, punctuation.not_mem_name name⟩, ?_⟩, spacing.blanks.1.not_mem punctuation.ne_space⟩
  · exact punctuation.not_mem_words (by decide)
  · exact punctuation.not_mem_words (by decide)

private theorem not_mem_lengthPart {char : Char} (punctuation : Punctuation char) :
    char ∉ spacing.lengthPart name.chars := by
  simp only [Spacing.lengthPart, List.mem_append, not_or]
  refine ⟨⟨⟨?_, punctuation.not_mem_name name⟩, ?_⟩, spacing.blanks.1.not_mem punctuation.ne_space⟩
  · exact punctuation.not_mem_words (by decide)
  · exact punctuation.not_mem_words (by decide)

private theorem not_mem_content {char : Char} (punctuation : Punctuation char) : char ∉ spacing.content array := by
  intro member
  rcases List.mem_append.mp member with member | member
  · exact spacing.blanks.2.2.1.not_mem punctuation.ne_space member
  · rcases mem_intercalate member with member | ⟨item, listed, member⟩
    · rcases List.mem_cons.mp member with same | member
      · exact punctuation.ne_separator (by decide) same
      · exact spacing.blanks.2.2.2.not_mem punctuation.ne_space member
    · obtain ⟨byte, _, rfl⟩ := List.mem_map.mp listed
      exact not_mem_hexLiteral punctuation.symbol member

private theorem readArray_header : readArray (spacing.header array name.chars) = some (array.map UInt8.toNat) := by
  have shape : spacing.header array name.chars = (spacing.arrayPart name.chars ++ '=' :: spacing.afterEquals) ++
      '\x7b' :: (spacing.content array ++ '\x7d' ::
        (';' :: '\n' :: (spacing.lengthLine array name.chars ++ ['\n']))) := by
    simp [Spacing.header, Spacing.arrayLine]
  have part := not_mem_arrayPart spacing name brace_punctuation.1
  have noOpening : '\x7b' ∉ spacing.arrayPart name.chars ++ '=' :: spacing.afterEquals := by
    simp only [List.mem_append, List.mem_cons, not_or]
    exact ⟨part, by decide, spacing.blanks.2.1.not_mem brace_punctuation.1.ne_space⟩
  have noClosing : '\x7d' ∉ spacing.content array :=
    not_mem_content spacing array brace_punctuation.2
  have items : hexArray array = (array.map UInt8.toNat).map (hexLiteral 2) := by
    simp [hexArray]
  rw [readArray, shape, between_eq _ noOpening noClosing, Spacing.content, items]
  exact readList_joined spacing.blanks.2.2.1 spacing.blanks.2.2.2 2 _

private theorem splitOn_header : (spacing.header array name.chars).splitOn '\n' =
    [spacing.arrayLine array name.chars, spacing.lengthLine array name.chars, []] := by
  have inArray := not_mem_arrayPart spacing name newline_punctuation
  have inLength := not_mem_lengthPart spacing name newline_punctuation
  have inSpaces : '\n' ∉ spacing.afterEquals := spacing.blanks.2.1.not_mem newline_punctuation.ne_space
  have inContent := not_mem_content spacing array newline_punctuation
  have inDigits : '\n' ∉ Nat.toDigits 10 array.length := not_mem_decimal rfl
  have first : '\n' ∉ spacing.arrayLine array name.chars := by
    simp [Spacing.arrayLine, inArray, inSpaces, inContent]
  have second : '\n' ∉ spacing.lengthLine array name.chars := by
    simp [Spacing.lengthLine, inLength, inSpaces, inDigits]
  rw [Spacing.header, List.splitOn_append_cons_self_of_not_mem first,
    List.splitOn_append_cons_self_of_not_mem second]
  rfl

private theorem declared_array : (declaration (spacing.arrayLine array name.chars)).1 =
    arrayWords ++ name.chars ++ ['[', ']'] := by
  have part := not_mem_arrayPart spacing name equals_punctuation
  have trimmed := trimmed_between arrayWords name.chars ['[', ']']
    ⟨'c', by decide, by decide⟩ ⟨']', by decide, by decide⟩
  rw [declaration, Spacing.arrayLine, takeWhile_until part, Spacing.arrayPart]
  exact trim_after trimmed spacing.blanks.1

private theorem declaration_length : declaration (spacing.lengthLine array name.chars) =
    (lengthWords ++ name.chars ++ lengthSuffix, Nat.toDigits 10 array.length) := by
  have part := not_mem_lengthPart spacing name equals_punctuation
  have trimmed := trimmed_between lengthWords name.chars lengthSuffix
    ⟨'c', by decide, by decide⟩ ⟨'n', by decide, by decide⟩
  have noSemicolon : ';' ∉ spacing.afterEquals ++ Nat.toDigits 10 array.length := by
    rw [List.mem_append, not_or]
    exact ⟨spacing.blanks.2.1.not_mem (by decide), not_mem_decimal rfl⟩
  rw [declaration, Spacing.lengthLine, takeWhile_until part, dropWhile_until part, List.drop_one, List.tail_cons,
    takeWhile_until noSemicolon, Spacing.lengthPart, trim_after trimmed spacing.blanks.1,
    trim_before spacing.blanks.2.1 (trimmed_of_spaceless (not_mem_decimal rfl))]

/-- The two declarations differ in their type, whatever the name is. -/
private theorem array_ne_length (first second : List Char) : arrayWords ++ first ≠ lengthWords ++ second := by
  intro same
  have inside := congrArg (fun text : List Char => text[15]?) same
  simp only [List.getElem?_append_left (show 15 < arrayWords.length by decide),
    List.getElem?_append_left (show 15 < lengthWords.length by decide)] at inside
  exact absurd inside (by decide)

private theorem readConstant_header :
    readConstant (name.chars ++ lengthSuffix) (spacing.header array name.chars) = some array.length := by
  have differs : (declaration (spacing.arrayLine array name.chars)).1 ≠ lengthWords ++ (name.chars ++ lengthSuffix) := by
    rw [declared_array, List.append_assoc]
    exact array_ne_length _ _
  have declares : (declaration (spacing.lengthLine array name.chars)).1 = lengthWords ++ (name.chars ++ lengthSuffix) := by
    rw [declaration_length, List.append_assoc]
  have value : (declaration (spacing.lengthLine array name.chars)).2 = Nat.toDigits 10 array.length := by
    rw [declaration_length]
  rw [readConstant, splitOn_header, List.findSome?_cons, if_neg differs, List.findSome?_cons, if_pos declares, value,
    readDecimal_toDigits]

/-- What a header says when it is read back. -/
structure ReadsBack (header : List Char) (name : Identifier) (array : List UInt8) : Prop where
  items : readArray header = some (array.map UInt8.toNat)
  bytes : ∀ items, readArray header = some items → ∀ item ∈ items, item < 256
  length : readConstant (name.chars ++ lengthSuffix) header = some array.length

/-- Every header reads back as the bytes that it was written from, and no exporter writes it for
other bytes. -/
theorem round_trip (exporter : Exporter) (array : List UInt8) (name : Identifier) :
    ReadsBack (exporter.header array name.chars) name array ∧
      ∀ (another : Exporter) (other : List UInt8) (otherName : Identifier),
        another.header other otherName.chars = exporter.header array name.chars → other = array := by
  obtain ⟨spacing, same⟩ := header_spaced exporter
  rw [same]
  have items := readArray_header spacing array name
  refine ⟨⟨items, ?_, readConstant_header spacing array name⟩, ?_⟩
  · intro read found item member
    rw [items] at found
    cases found
    obtain ⟨byte, _, rfl⟩ := List.mem_map.mp member
    exact byte.toNat_lt
  · intro another other otherName equal
    obtain ⟨otherSpacing, otherSame⟩ := header_spaced another
    have read := readArray_header otherSpacing other otherName
    rw [← otherSame, equal, items] at read
    apply List.map_injective_iff.mpr (fun _ _ => UInt8.toNat_inj.mp)
    exact (Option.some.inj read).symm

theorem round_trip_script_names :
    (ReadsBack (Mcc.converToArray [28, 0, 255] gModel.chars) gModel [28, 0, 255] ∧
      ReadsBack (LinearModelTflite.generateCArray [] gModel.chars) gModel [] ∧
      ReadsBack (SineModelTflite.generateCArray [10, 92] sineMod.chars) sineMod [10, 92]) ∧
    SineModelTflite.generateCArray [10, 92] sineMod.chars ≠ LinearModelTflite.generateCArray [10, 91] gModel.chars := by
  refine ⟨⟨(round_trip .mcc [28, 0, 255] gModel).1, (round_trip .linearModelTflite [] gModel).1,
    (round_trip .sineModelTflite [10, 92] sineMod).1⟩, fun same => ?_⟩
  have bytes := (round_trip .linearModelTflite [10, 91] gModel).2 .sineModelTflite [10, 92] sineMod same
  exact absurd bytes (by decide)

end ZephyrTutorial.Proofs.ModelExportRoundTrip
