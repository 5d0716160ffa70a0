import ZephyrTutorial.Literals

/-! The Python scripts that write a converted model as a C header. The three exporters differ
in the punctuation only. -/

namespace ZephyrTutorial.ModelExport
open Literals

/-- A C identifier. -/
structure Identifier where
  chars : List Char
  word : ∀ char ∈ chars, char.isAlphanum ∨ char = '_'
  starts : ∃ first rest, chars = first :: rest ∧ ¬ first.isDigit

/-- The names that the scripts use. -/
def gModel : Identifier := ⟨"g_model".toList, by simp, 'g', "_model".toList, by decide⟩

def sineMod : Identifier := ⟨"sine_mod".toList, by simp, 's', "ine_mod".toList, by decide⟩

/-- `[f"0x{b:02x}" for b in array]` -/
def hexArray (array : List UInt8) : List (List Char) := array.map fun b => hexLiteral 2 b.toNat

def arrayWords : List Char := "const unsigned char ".toList

def lengthWords : List Char := "const unsigned int ".toList

def lengthSuffix : List Char := "_len".toList

/-- The two lines that an exporter writes, with the texts around the name, the items and the length. -/
def writeHeader (declare separator assign : String) (array : List UInt8) (arrayname : List Char) : List Char :=
  arrayWords ++ arrayname ++ declare.toList ++
    separator.toList.intercalate (hexArray array) ++ "\x7d;\n".toList ++
  (lengthWords ++ arrayname ++ lengthSuffix ++ assign.toList ++ Nat.toDigits 10 array.length ++ ";\n".toList)

namespace Mcc

def converToArray : List UInt8 → List Char → List Char := writeHeader "[]=\x7b " "," "="

end Mcc

namespace SineModelTflite

def generateCArray : List UInt8 → List Char → List Char := writeHeader "[] = \x7b" "," " = "

end SineModelTflite

namespace LinearModelTflite

def generateCArray : List UInt8 → List Char → List Char := writeHeader "[] = \x7b" ", " " = "

end LinearModelTflite

inductive Exporter
  | mcc | sineModelTflite | linearModelTflite
  deriving DecidableEq, Repr

def Exporter.header : Exporter → List UInt8 → List Char → List Char
  | .mcc => Mcc.converToArray
  | .sineModelTflite => SineModelTflite.generateCArray
  | .linearModelTflite => LinearModelTflite.generateCArray

/-- The items of the initializer, read as hexadecimal literals. -/
def readArray (header : List Char) : Option (List Nat) := readList (between '\x7b' '\x7d' header)

/-- What a line declares to be what, if it has an equals sign: both sides are trimmed. -/
def declaration (line : List Char) : List Char × List Char :=
  (trim (line.takeWhile (· != '=')), trim (((line.dropWhile (· != '=')).drop 1).takeWhile (· != ';')))

/-- The constant with the given name, read as a decimal. -/
def readConstant (constant header : List Char) : Option Nat :=
  (header.splitOn '\n').findSome? fun line =>
    if (declaration line).1 = lengthWords ++ constant then readDecimal (declaration line).2
    else none

end ZephyrTutorial.ModelExport
