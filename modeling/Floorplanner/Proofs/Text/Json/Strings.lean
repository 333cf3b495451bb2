import Floorplanner.Text.Json.Reader
import Floorplanner.Text.Json.Record

/-!
Strings of JSON texts.

What is written between quotes reads back as the text that it was written for, whatever characters
that holds, and the first quote that a reader takes for the closing one is the closing one.
-/

namespace Floorplanner

namespace Json

inductive Escapes : Char → List Char → Prop where
  | letter {c : Char} (letter : Char) (notWord : letter ≠ 'u') (stands : letterEscape? letter = some c) :
      Escapes c ['\\', letter]
  | control {c : Char} (isControl : c.toNat < 32) :
      Escapes c ['\\', 'u', '0', '0', hexDigit (c.toNat / 16), hexDigit (c.toNat % 16)]
  | plain {c : Char} (noQuote : c ≠ '"') (noBackslash : c ≠ '\\') (noControl : ¬ c.toNat < 32) :
      Escapes c [c]

theorem escapes_escapeChar (c : Char) : Escapes c (escapeChar c) := by
  unfold escapeChar
  split
  next quote => exact .letter '"' (by decide) (by rw [quote]; rfl)
  split
  next backslash => exact .letter '\\' (by decide) (by rw [backslash]; rfl)
  split
  next backspace => exact .letter 'b' (by decide) (by rw [backspace]; rfl)
  split
  next feed => exact .letter 'f' (by decide) (by rw [feed]; rfl)
  split
  next newline => exact .letter 'n' (by decide) (by rw [newline]; rfl)
  split
  next carriage => exact .letter 'r' (by decide) (by rw [carriage]; rfl)
  split
  next tab => exact .letter 't' (by decide) (by rw [tab]; rfl)
  split
  next control => exact .control control
  next noQuote noBackslash _ _ _ _ _ noControl => exact .plain noQuote noBackslash noControl

theorem hexWord?_hexDigit :
    ∀ value < 32, hexWord? '0' '0' (hexDigit (value / 16)) (hexDigit (value % 16)) = some value := by
  decide

theorem isHexDigit_hexDigit : ∀ value < 16, isHexDigit (hexDigit value) = true := by
  decide

section Reading

variable {c : Char} {written : List Char}

theorem Escapes.unescape_append (escapes : Escapes c written) (rest : List Char) :
    unescape (written ++ rest) = (unescape rest).map (c :: ·) := by
  cases escapes with
  | letter letter notWord stands =>
      rw [List.cons_append, List.singleton_append, unescape.eq_def]
      split <;> grind
  | control isControl =>
      have noLow : isLowSurrogate c.toNat = false := by
        simp only [isLowSurrogate, Bool.and_eq_false_iff, decide_eq_false_iff_not]
        omega
      have noHigh : isHighSurrogate c.toNat = false := by
        simp only [isHighSurrogate, Bool.and_eq_false_iff, decide_eq_false_iff_not]
        omega
      simp only [List.cons_append, List.nil_append, unescape, hexWord?_hexDigit c.toNat isControl,
        noLow, noHigh, Char.ofNat_toNat]
      rfl
  | plain noQuote noBackslash noControl =>
      rw [List.singleton_append, unescape.eq_def]
      split <;> grind

theorem Escapes.splitString_append (escapes : Escapes c written) (rest : List Char) :
    splitString (written ++ rest) =
      (splitString rest).map fun (lexeme, rest) => (written ++ lexeme, rest) := by
  cases escapes with
  | letter letter notWord stands =>
      rw [List.cons_append, List.singleton_append, splitString.eq_def]
      split <;> grind
  | control isControl =>
      have high := isHexDigit_hexDigit (c.toNat / 16) (by omega)
      have low := isHexDigit_hexDigit (c.toNat % 16) (by omega)
      have zero : isHexDigit '0' = true := by decide
      simp only [List.cons_append, List.nil_append, splitString, zero, high, low, Bool.and_self,
        if_true]
  | plain noQuote noBackslash noControl =>
      rw [List.singleton_append, splitString.eq_def]
      split <;> grind

theorem unescape_escape (text : List Char) : unescape (escape text) = some text := by
  induction text with
  | nil => rfl
  | cons c text induction =>
      rw [escape, List.flatMap_cons, (escapes_escapeChar c).unescape_append, ← escape, induction]
      rfl

theorem splitString_escape (text rest : List Char) :
    splitString (escape text ++ '"' :: rest) = some (escape text, rest) := by
  induction text with
  | nil => rfl
  | cons c text induction =>
      rw [escape, List.flatMap_cons, List.append_assoc, (escapes_escapeChar c).splitString_append,
        ← escape, induction]
      rfl

@[simp] theorem text?_escape (text : String) : text? (escape text.toList) = some text := by
  rw [text?, unescape_escape, Option.map_some, String.ofList_toList]

example : text? ['\\', '"', '\\', 'u', '0', '0', '1', 'b', 'é'] = some "\"\x1bé" := by decide

@[simp] theorem asText?_ofText (text : String) : asText? (ofText text) = some text :=
  text?_escape text

end Reading

end Json

end Floorplanner
