import CvmAttestation.ClientJsonReader
import Mathlib.Data.List.TakeWhile

/-! The writer of the JSON library, with the settings that `StreamWriterBuilder` starts with: one element or member on a
line, a tab for every level, and all comments, of which the values here have none. What it writes is read back by the
parser of the library, wherever values are not nested deeper than that parser goes; deeper ones make it throw. -/

namespace CvmAttestation.Client.JsonWriter

open Base Base.Json JsonReader

/-! ### The writer -/

/-- The characters that have an escape of their own. -/
def shortEscape (c : UInt8) : Option UInt8 :=
  if c = 34 ∨ c = 92 then some c
  else if c = 8 then some 98
  else if c = 12 then some 102
  else if c = 10 then some 110
  else if c = 13 then some 114
  else if c = 9 then some 116
  else none

def hexUpper (n : UInt8) : UInt8 := if n < 10 then 48 + n else 55 + n

def escapeChar (c : UInt8) : Bytes :=
  match shortEscape c with
  | some e => [92, e]
  | none => if c < 32 then [92, 117, 48, 48, hexUpper (c / 16), hexUpper (c % 16)] else [c]

/-- `valueToQuotedStringN`. -/
def valueToQuotedStringN (value : Bytes) : Bytes :=
  if value.all fun c => (shortEscape c).isNone && 32 ≤ c then 34 :: (value ++ [34])
  else 34 :: (value.flatMap escapeChar ++ [34])

/-- `BuiltStyledStreamWriter`, with the text it has written. -/
structure StyledWriter where
  sout : Bytes
  indentString : Bytes
  indented : Bool

def StyledWriter.pushValue (w : StyledWriter) (value : Bytes) : StyledWriter := { w with sout := w.sout ++ value }

def StyledWriter.writeIndent (w : StyledWriter) : StyledWriter := w.pushValue (10 :: w.indentString)

def StyledWriter.writeWithIndent (w : StyledWriter) (value : Bytes) : StyledWriter :=
  { (if w.indented then w else w.writeIndent).pushValue value with indented := false }

def StyledWriter.indent (w : StyledWriter) : StyledWriter := { w with indentString := w.indentString ++ [9] }

def StyledWriter.unindent (w : StyledWriter) : StyledWriter := { w with indentString := w.indentString.dropLast }

section

variable (F : FloatText)

mutual

def writeValue (w : StyledWriter) : Json → StyledWriter
  | .null => w.pushValue (ascii "null")
  | .int n => w.pushValue (intText n)
  | .real x => w.pushValue (F.write x)
  | .string s => w.pushValue (valueToQuotedStringN s)
  | .bool b => w.pushValue (if b then ascii "true" else ascii "false")
  | .array xs =>
    if xs.isEmpty then w.pushValue (ascii "[]")
    else ((writeElements ((w.writeWithIndent (ascii "[")).indent) xs).unindent).writeWithIndent (ascii "]")
  | .object ms =>
    if ms.isEmpty then w.pushValue (ascii "\x7b\x7d")
    else ((writeMembers ((w.writeWithIndent (ascii "\x7b")).indent) ms).unindent).writeWithIndent (ascii "\x7d")

/-- The loop of `writeArrayValue`. -/
def writeElements (w : StyledWriter) : List Json → StyledWriter
  | [] => w
  | x :: xs =>
    let started := if w.indented then w else w.writeIndent
    let written := { writeValue { started with indented := true } x with indented := false }
    if xs.isEmpty then written else writeElements (written.pushValue (ascii ",")) xs

/-- The loop of `writeValue` over the members of an object. -/
def writeMembers (w : StyledWriter) : List (Bytes × Json) → StyledWriter
  | [] => w
  | (name, x) :: ms =>
    let named := (w.writeWithIndent (valueToQuotedStringN name)).pushValue (ascii " : ")
    let written := writeValue named x
    if ms.isEmpty then written else writeMembers (written.pushValue (ascii ",")) ms

end

/-- `Json::writeString`. -/
def writeString (j : Json) : Bytes := (writeValue F ⟨[], [], true⟩ j).sout

/-! ### The text that is written -/

def line (indented : Bool) (indentString : Bytes) : Bytes := if indented then [] else 10 :: indentString

mutual

def valueText (indented : Bool) (indentString : Bytes) : Json → Bytes
  | .null => ascii "null"
  | .int n => intText n
  | .real x => F.write x
  | .string s => valueToQuotedStringN s
  | .bool b => if b then ascii "true" else ascii "false"
  | .array xs =>
    if xs.isEmpty then [91, 93]
    else line indented indentString ++ 91 :: (elementsText (indentString ++ [9]) xs ++ 10 :: (indentString ++ [93]))
  | .object ms =>
    if ms.isEmpty then [123, 125]
    else line indented indentString ++ 123 :: (membersText (indentString ++ [9]) ms ++ 10 :: (indentString ++ [125]))

def elementsText (indentString : Bytes) : List Json → Bytes
  | [] => []
  | x :: xs =>
    10 :: (indentString ++ valueText true indentString x) ++ if xs.isEmpty then [] else 44 :: elementsText indentString xs

def membersText (indentString : Bytes) : List (Bytes × Json) → Bytes
  | [] => []
  | (name, x) :: ms =>
    10 :: (indentString ++ valueToQuotedStringN name) ++ (32 :: 58 :: 32 :: valueText false indentString x) ++
      if ms.isEmpty then [] else 44 :: membersText indentString ms

end

mutual

/-- A value is appended to the text, at the same level as before. -/
theorem writeValue_eq (out ind : Bytes) (b : Bool) (j : Json) :
    (writeValue F ⟨out, ind, b⟩ j).sout = out ++ valueText F b ind j ∧
      (writeValue F ⟨out, ind, b⟩ j).indentString = ind ∧
        (b = false → (writeValue F ⟨out, ind, b⟩ j).indented = false) := by
  cases j with
  | null => exact ⟨rfl, rfl, id⟩
  | bool b => exact ⟨rfl, rfl, id⟩
  | int n => exact ⟨rfl, rfl, id⟩
  | real x => exact ⟨rfl, rfl, id⟩
  | string s => exact ⟨rfl, rfl, id⟩
  | array xs =>
      rw [writeValue, valueText]
      split
      · exact ⟨rfl, rfl, id⟩
      · have hopen : ((⟨out, ind, b⟩ : StyledWriter).writeWithIndent (ascii "[")).indent =
            ⟨out ++ line b ind ++ [91], ind ++ [9], false⟩ := by
          cases b <;> simp [StyledWriter.writeWithIndent, StyledWriter.writeIndent, StyledWriter.pushValue,
            StyledWriter.indent, line, ascii]
        rw [hopen, writeElements_eq]
        simp [StyledWriter.unindent, StyledWriter.writeWithIndent, StyledWriter.writeIndent, StyledWriter.pushValue, ascii]
  | object ms =>
      rw [writeValue, valueText]
      split
      · exact ⟨rfl, rfl, id⟩
      · have hopen : ((⟨out, ind, b⟩ : StyledWriter).writeWithIndent (ascii "\x7b")).indent =
            ⟨out ++ line b ind ++ [123], ind ++ [9], false⟩ := by
          cases b <;> simp [StyledWriter.writeWithIndent, StyledWriter.writeIndent, StyledWriter.pushValue,
            StyledWriter.indent, line, ascii]
        rw [hopen, writeMembers_eq]
        simp [StyledWriter.unindent, StyledWriter.writeWithIndent, StyledWriter.writeIndent, StyledWriter.pushValue, ascii]

theorem writeElements_eq (out ind : Bytes) (xs : List Json) :
    writeElements F ⟨out, ind, false⟩ xs = ⟨out ++ elementsText F ind xs, ind, false⟩ := by
  cases xs with
  | nil => rw [writeElements, elementsText, List.append_nil]
  | cons x xs =>
      obtain ⟨hsout, hindent, -⟩ := writeValue_eq (out ++ 10 :: ind) ind true x
      have hmore := writeElements_eq (out ++ 10 :: ind ++ valueText F true ind x ++ [44]) ind xs
      rw [writeElements, elementsText]
      dsimp only [StyledWriter.writeIndent, StyledWriter.pushValue]
      rw [if_neg Bool.false_ne_true]
      dsimp only
      rw [hsout, hindent]
      split
      · simp
      · rw [show ascii "," = [44] from rfl, hmore]
        simp

theorem writeMembers_eq (out ind : Bytes) (ms : List (Bytes × Json)) :
    writeMembers F ⟨out, ind, false⟩ ms = ⟨out ++ membersText F ind ms, ind, false⟩ := by
  cases ms with
  | nil => rw [writeMembers, membersText, List.append_nil]
  | cons m ms =>
      obtain ⟨name, x⟩ := m
      obtain ⟨hsout, hindent, hindented⟩ :=
        writeValue_eq (out ++ 10 :: (ind ++ valueToQuotedStringN name) ++ [32, 58, 32]) ind false x
      have hnamed : ((⟨out, ind, false⟩ : StyledWriter).writeWithIndent (valueToQuotedStringN name)).pushValue
          (ascii " : ") = ⟨out ++ 10 :: (ind ++ valueToQuotedStringN name) ++ [32, 58, 32], ind, false⟩ := by
        simp [StyledWriter.writeWithIndent, StyledWriter.writeIndent, StyledWriter.pushValue, ascii]
      have hwritten : writeValue F ⟨out ++ 10 :: (ind ++ valueToQuotedStringN name) ++ [32, 58, 32], ind, false⟩ x =
          ⟨out ++ 10 :: (ind ++ valueToQuotedStringN name) ++ 32 :: 58 :: 32 :: valueText F false ind x, ind, false⟩ := by
        rw [StyledWriter.mk.injEq, hsout, hindent, hindented rfl]
        simp
      have hmore := writeMembers_eq (out ++ 10 :: (ind ++ valueToQuotedStringN name) ++
        32 :: 58 :: 32 :: valueText F false ind x ++ [44]) ind ms
      rw [writeMembers, membersText, hnamed, hwritten]
      split
      · simp
      · rw [show ascii "," = [44] from rfl, StyledWriter.pushValue, hmore]
        simp

end

end

end CvmAttestation.Client.JsonWriter
