import ScriptLowering.Listing.Module
import ScriptLowering.Proofs.PrintedDocuments

/-! # Quoted bytes

Constant data is listed as a text between quotes. Reading such a text needs no more than two rules: a
backslash and two hexadecimal digits are a byte, and any other character is the byte of its own code.
No quote is left between the quotes, so the next one is the end wherever the text stands.
-/

namespace ScriptLowering.Listing

open Code (DataObject)
open Json.Text (hexValue?)

/-! ## Reading -/

/-- The bytes that the characters between two quotes stand for. -/
def unescape : List Char → Option (List UInt8)
  | [] => some []
  | '\\' :: high :: low :: rest => do
      let byte := 16 * (← hexValue? high) + (← hexValue? low)
      return byte.toUInt8 :: (← unescape rest)
  | character :: rest =>
      if character = '\\' ∨ 0xff < character.toNat then none
      else (unescape rest).map (character.toNat.toUInt8 :: ·)

/-- Read from one quote to the next, and give back what is behind it. -/
def readQuoted : List Char → Option (List UInt8 × List Char)
  | '"' :: rest =>
      match rest.dropWhile (· ≠ '"') with
      | _ :: behind => (unescape (rest.takeWhile (· ≠ '"'))).map fun bytes => (bytes, behind)
      | [] => none
  | _ => none

/-! ## Single bytes -/

/-- A printable character of ASCII that is not the quote. -/
def IsInner (character : Char) : Prop :=
  ' ' ≤ character ∧ character ≤ '~' ∧ character ≠ '"'

instance (character : Char) : Decidable (IsInner character) :=
  inferInstanceAs (Decidable (_ ∧ _ ∧ _))

theorem hexValue?_hexDigit (value : Nat) : hexValue? (hexDigit value) = some (value % 16) := by
  have each : ∀ digit < 16, hexValue? (hexDigits.getD digit '0') = some digit := by decide
  exact each (value % 16) (Nat.mod_lt _ (by decide))

theorem isInner_hexDigit (value : Nat) : IsInner (hexDigit value) := by
  have each : ∀ digit < 16, IsInner (hexDigits.getD digit '0') := by decide
  exact each (value % 16) (Nat.mod_lt _ (by decide))

theorem escapeByte_cases (byte : UInt8) :
    escapeByte byte = ['\\', hexDigit (byte.toNat / 16), hexDigit byte.toNat] ∨
      escapeByte byte = [Char.ofNat byte.toNat] ∧ 0x20 ≤ byte.toNat ∧ byte.toNat ≤ 0x7e ∧
        byte.toNat ≠ '"'.toNat ∧ byte.toNat ≠ '\\'.toNat := by
  simp only [escapeByte]
  split
  · exact .inl rfl
  · refine .inr ⟨rfl, ?_⟩
    omega

theorem toNat_ofNat_of_le {value : Nat} (small : value ≤ 0x7e) : (Char.ofNat value).toNat = value := by
  have valid : value.isValidChar := .inl (by omega)
  rw [Char.ofNat, dif_pos valid]
  rfl

theorem isInner_of_mem_escapeByte {byte : UInt8} {character : Char}
    (member : character ∈ escapeByte byte) : IsInner character := by
  rcases escapeByte_cases byte with escaped | ⟨plain, low, high, notQuote, _⟩
  · rw [escaped] at member
    simp only [List.mem_cons, List.not_mem_nil, or_false] at member
    rcases member with rfl | rfl | rfl
    · decide
    · exact isInner_hexDigit _
    · exact isInner_hexDigit _
  · rw [plain, List.mem_singleton] at member
    subst member
    have code := toNat_ofNat_of_le high
    refine ⟨?_, ?_, fun same => notQuote ?_⟩
    · exact Char.le_def.mpr (UInt32.le_iff_toNat_le.mpr (le_of_le_of_eq low code.symm))
    · exact Char.le_def.mpr (UInt32.le_iff_toNat_le.mpr (le_of_eq_of_le code high))
    · rw [← code, same]

theorem unescape_escapeByte (byte : UInt8) (rest : List Char) :
    unescape (escapeByte byte ++ rest) = (unescape rest).map (byte :: ·) := by
  have small := UInt8.toNat_lt byte
  rcases escapeByte_cases byte with escaped | ⟨plain, _, high, _, notBackslash⟩
  · have value : (16 * (byte.toNat / 16 % 16) + byte.toNat % 16).toUInt8 = byte := by
      rw [show 16 * (byte.toNat / 16 % 16) + byte.toNat % 16 = byte.toNat by omega]
      exact UInt8.ofNat_toNat
    rw [escaped, List.cons_append, List.cons_append, List.singleton_append, unescape,
      hexValue?_hexDigit, hexValue?_hexDigit]
    simp only [Option.bind_eq_bind, Option.bind_some, value]
    cases unescape rest <;> rfl
  · have code := toNat_ofNat_of_le high
    have different : Char.ofNat byte.toNat ≠ '\\' := fun same => notBackslash (by rw [← code, same])
    rw [plain, List.singleton_append, unescape]
    · simp [different, code, show ¬ 0xff < byte.toNat by omega]
    · exact fun _ _ _ same _ => different same

/-! ## All bytes -/

theorem isInner_of_mem_flatMap {bytes : List UInt8} {character : Char}
    (member : character ∈ bytes.flatMap escapeByte) : IsInner character := by
  rcases List.mem_flatMap.mp member with ⟨byte, _, inside⟩
  exact isInner_of_mem_escapeByte inside

theorem unescape_flatMap (bytes : List UInt8) : unescape (bytes.flatMap escapeByte) = some bytes := by
  induction bytes with
  | nil => rfl
  | cons byte rest induction => rw [List.flatMap_cons, unescape_escapeByte, induction, Option.map_some]

theorem readQuoted_append {token : List Char} {bytes : List UInt8} (rest : List Char)
    (inner : ∀ character ∈ token, IsInner character) (reads : unescape token = some bytes) :
    readQuoted ('"' :: token ++ '"' :: rest) = some (bytes, rest) := by
  have unquoted : ∀ character ∈ token, decide (character ≠ '"') = true :=
    fun character member => decide_eq_true (inner character member).2.2
  rw [List.cons_append, readQuoted, List.takeWhile_append_of_pos unquoted,
    List.dropWhile_append_of_pos unquoted]
  simp [reads]

theorem readQuoted_quoteBytes (bytes : List UInt8) (rest : List Char) :
    readQuoted ((quoteBytes bytes).toList ++ rest) = some (bytes, rest) := by
  rw [quoteBytes, String.toList_ofList, List.append_assoc, List.singleton_append]
  exact readQuoted_append rest (fun _ => isInner_of_mem_flatMap) (unescape_flatMap bytes)

theorem quoteBytes_append_inj {bytes other : List UInt8} {rest otherRest : String} :
    quoteBytes bytes ++ rest = quoteBytes other ++ otherRest ↔ bytes = other ∧ rest = otherRest := by
  constructor
  · intro same
    have read := readQuoted_quoteBytes bytes rest.toList
    rw [← String.toList_append, same, String.toList_append, readQuoted_quoteBytes] at read
    simp only [Option.some.injEq, Prod.mk.injEq, String.toList_inj] at read
    exact ⟨read.1.symm, read.2.symm⟩
  · rintro ⟨rfl, rfl⟩
    rfl

/-! ## Lines of data -/

theorem quote_not_mem_toDigits (number : Nat) : '"' ∉ Nat.toDigits 10 number := by
  intro member
  have digit := Nat.isDigit_of_mem_toDigits (by decide) (by decide) member
  revert digit
  decide

theorem dropWhile_dataText (object : DataObject) (rest : String) :
    (dataText object ++ rest).toList.dropWhile (· ≠ '"') =
      (quoteBytes object.bytes).toList ++ rest.toList := by
  have header : ∀ character ∈ ("data " ++ object.id.text ++ " = ").toList,
      decide (character ≠ '"') = true := by
    intro character member
    refine decide_eq_true fun same => ?_
    subst same
    simp [Code.DataId.text, quote_not_mem_toDigits] at member
  rw [dataText, String.append_assoc, String.toList_append,
    List.dropWhile_append_of_pos header, String.toList_append, quoteBytes]
  simp

/-- Quoted bytes are a token of printable characters that is read back as the same bytes. Where it ends
does not depend on what comes behind it, so different bytes are written differently, also in the middle
of a line. -/
theorem quoted_bytes_read_back :
    (∀ bytes, ∃ token, (quoteBytes bytes).toList = '"' :: token ++ ['"'] ∧
      (∀ character ∈ token, IsInner character) ∧ '\n' ∉ (quoteBytes bytes).toList ∧
      unescape token = some bytes) ∧
    Function.Injective quoteBytes ∧
    (∀ bytes rest, readQuoted ((quoteBytes bytes).toList ++ rest) = some (bytes, rest)) ∧
    (∀ bytes other rest otherRest, quoteBytes bytes ++ rest = quoteBytes other ++ otherRest ↔
      bytes = other ∧ rest = otherRest) ∧
    ∀ object rest, readQuoted ((dataText object ++ rest).toList.dropWhile (· ≠ '"')) =
      some (object.bytes, rest.toList) := by
  refine ⟨fun bytes => ?_, fun bytes other same => ?_, readQuoted_quoteBytes,
    fun _ _ _ _ => quoteBytes_append_inj, fun object rest => ?_⟩
  · have written : (quoteBytes bytes).toList = '"' :: bytes.flatMap escapeByte ++ ['"'] :=
      String.toList_ofList
    refine ⟨bytes.flatMap escapeByte, written, fun _ => isInner_of_mem_flatMap, ?_,
      unescape_flatMap bytes⟩
    rw [written]
    intro member
    rcases List.mem_append.mp member with inside | closing
    · rcases List.mem_cons.mp inside with opening | inner
      · cases opening
      · exact absurd (isInner_of_mem_flatMap inner) (by decide)
    · simp at closing
  · have texts : quoteBytes bytes ++ "" = quoteBytes other ++ "" := by rw [same]
    exact (quoteBytes_append_inj.mp texts).1
  · rw [dropWhile_dataText]
    exact readQuoted_quoteBytes object.bytes rest.toList

/-- Digits behind an escape stay outside of it. -/
example : readQuoted (quoteBytes [0x00, 0x30, 0x22, 0x41, 0xff]).toList =
    some ([0x00, 0x30, 0x22, 0x41, 0xff], []) := by decide

end ScriptLowering.Listing
