import Mathlib.Data.List.Basic
import Mathlib.Tactic.Common
import UnifiMcp.Text.Utf8

/-!
# Query strings

A query string is split at `&` into parts, each part at its first `=` into a key and a value, and
each of these is percent-decoded.  A writer of bytes, by which every byte is an unreserved character
or a triplet (`WrittenAs`), uses neither separator, so what is written with it is read back
(`parseQuery_writeQuery`), and nothing but such characters, triplets and separators is written
(`isQuery_writeQuery`).
-/

namespace Text

/-! ## Percent-encoding -/

/-- A character that stands for itself wherever it is written. -/
def unreserved (c : Char) : Bool :=
  c.isAlphanum || c == '-' || c == '.' || c == '_' || c == '~'

/-- The value of a hexadecimal digit. -/
def hexValue (c : Char) : Option Nat :=
  if '0' ≤ c ∧ c ≤ '9' then some (c.toNat - '0'.toNat)
  else if 'A' ≤ c ∧ c ≤ 'F' then some (c.toNat - 'A'.toNat + 10)
  else if 'a' ≤ c ∧ c ≤ 'f' then some (c.toNat - 'a'.toNat + 10)
  else none

/-- The bytes that percent-encoded characters stand for, unless a percent sign begins no triplet. -/
def percentDecode : List Char → Option (List UInt8)
  | [] => some []
  | '%' :: hi :: lo :: rest => do
      let high ← hexValue hi
      let low ← hexValue lo
      let bytes ← percentDecode rest
      pure (UInt8.ofNat (16 * high + low) :: bytes)
  | '%' :: _ => none
  | c :: rest => do
      let bytes ← percentDecode rest
      pure (String.utf8EncodeChar c ++ bytes)

/-- The text that percent-encoded characters stand for, if their bytes are one. -/
def decodeText (cs : List Char) : Option String := do
  let bytes ← percentDecode cs
  String.fromUTF8? bytes.toByteArray

/-- What may be written for a byte: an unreserved character or a triplet. -/
inductive WrittenAs : UInt8 → List Char → Prop where
  | plain {byte : UInt8} {c : Char} (free : unreserved c = true) (same : c.toNat = byte.toNat) :
      WrittenAs byte [c]
  | triplet {byte : UInt8} {hi lo : Char} {high low : Nat} (upper : hexValue hi = some high)
      (lower : hexValue lo = some low) (same : 16 * high + low = byte.toNat) :
      WrittenAs byte ['%', hi, lo]

theorem lt_of_unreserved {c : Char} (h : unreserved c = true) : c.toNat < 128 := by
  have hother : ∀ d : Char, c = d → d.toNat < 128 → c.toNat < 128 := fun d hd hlt => hd ▸ hlt
  unfold unreserved Char.isAlphanum Char.isAlpha Char.isUpper Char.isLower Char.isDigit at h
  simp only [Bool.or_eq_true, Bool.and_eq_true, decide_eq_true_eq, beq_iff_eq,
    UInt32.le_iff_toNat_le, ge_iff_le] at h
  rcases h with ((((((h | h) | h) | h) | h) | h) | h)
  · exact Nat.lt_of_le_of_lt h.2 (by decide)
  · exact Nat.lt_of_le_of_lt h.2 (by decide)
  · exact Nat.lt_of_le_of_lt h.2 (by decide)
  · exact hother _ h (by decide)
  · exact hother _ h (by decide)
  · exact hother _ h (by decide)
  · exact hother _ h (by decide)

theorem ne_of_unreserved {c d : Char} (h : unreserved c = true) (hd : unreserved d = false) :
    c ≠ d := by
  rintro rfl
  rw [h] at hd
  cases hd

/-- An unreserved character is decoded to its byte. -/
theorem percentDecode_plain {c : Char} {byte : UInt8} (h : unreserved c = true)
    (hbyte : c.toNat = byte.toNat) (rest : List Char) :
    percentDecode (c :: rest) = (percentDecode rest).map (byte :: ·) := by
  have hpercent : c ≠ '%' := ne_of_unreserved h (by decide)
  have hutf8 : String.utf8EncodeChar c = [byte] := by
    have hval : c.val.toUInt8 = byte := by
      apply UInt8.toNat.inj
      have hlt := byte.toNat_lt
      rw [UInt32.toNat_toUInt8]
      change c.toNat % 2 ^ 8 = byte.toNat
      omega
    rw [String.utf8EncodeChar_eq_singleton (utf8Size_eq_one_iff.2 (lt_of_unreserved h)), hval]
  rw [percentDecode, hutf8]
  · cases percentDecode rest <;> rfl
  · exact fun _ _ _ hc _ => hpercent hc
  · exact hpercent

/-- A triplet is decoded to its byte. -/
theorem percentDecode_triplet {hi lo : Char} {high low : Nat} {byte : UInt8}
    (hhi : hexValue hi = some high) (hlo : hexValue lo = some low)
    (hbyte : 16 * high + low = byte.toNat) (rest : List Char) :
    percentDecode ('%' :: hi :: lo :: rest) = (percentDecode rest).map (byte :: ·) := by
  rw [percentDecode, hhi, hlo]
  simp only [Option.bind_eq_bind, Option.bind_some, hbyte, UInt8.ofNat_toNat]
  cases percentDecode rest <;> rfl

/-! ## Query strings -/

/-- Split at the first `=`. -/
def splitOnce : List Char → Option (List Char × List Char)
  | [] => none
  | c :: rest =>
      if c = '=' then some ([], rest)
      else (splitOnce rest).map fun (key, value) => (c :: key, value)

/-- The key and the value of a part. -/
def parsePart (part : List Char) : Option (String × String) := do
  let (key, value) ← splitOnce part
  let key ← decodeText key
  let value ← decodeText value
  pure (key, value)

/-- The keys and values of a query string. -/
def parseQuery (text : String) : Option (List (String × String)) :=
  (text.toList.splitOn '&').mapM parsePart

/-- Nothing but unreserved characters, triplets and separators. -/
inductive IsQuery : List Char → Prop where
  | nil : IsQuery []
  | char {c : Char} {rest : List Char} (free : unreserved c = true ∨ c = '=' ∨ c = '&')
      (tail : IsQuery rest) : IsQuery (c :: rest)
  | triplet {hi lo : Char} {rest : List Char} (upper : (hexValue hi).isSome)
      (lower : (hexValue lo).isSome) (tail : IsQuery rest) : IsQuery ('%' :: hi :: lo :: rest)

/-! ## Reading back what is written -/

/-- The bytes of an array, in a list, make the array. -/
theorem toByteArray_toList (bytes : ByteArray) : bytes.toList.toByteArray = bytes := by
  have hloop : ∀ (left i : Nat) (read : List UInt8), left = bytes.size - i →
      ByteArray.toList.loop bytes i read = read.reverse ++ bytes.data.toList.drop i := by
    intro left
    induction left with
    | zero =>
        intro i read hleft
        rw [ByteArray.toList.loop, if_neg (by omega), List.drop_eq_nil_of_le, List.append_nil]
        rw [Array.length_toList]
        exact Nat.le_of_sub_eq_zero hleft.symm
    | succ left ih =>
        intro i read hleft
        have hi : i < bytes.data.toList.length := by
          rw [Array.length_toList]
          change i < bytes.size
          omega
        have hget : bytes.get! i = bytes.data.toList[i] := by
          obtain ⟨data⟩ := bytes
          rw [Array.length_toList] at hi
          change data[i]! = data.toList[i]
          rw [getElem!_pos data i hi, Array.getElem_toList]
        rw [ByteArray.toList.loop, if_pos (by omega), ih (i + 1) _ (by omega),
          List.drop_eq_getElem_cons hi, List.reverse_cons, List.append_assoc, hget]
        rfl
  have hlist : bytes.toList = bytes.data.toList := hloop bytes.size 0 [] rfl
  rw [hlist]
  exact ByteArray.ext (Array.toList_inj.1 List.toList_data_toByteArray)

/-- A part is split after a key without `=`. -/
theorem splitOnce_append {key : List Char} (h : '=' ∉ key) (value : List Char) :
    splitOnce (key ++ '=' :: value) = some (key, value) := by
  induction key with
  | nil => rw [List.nil_append, splitOnce, if_pos rfl]
  | cons c key ih =>
      rw [List.mem_cons, not_or] at h
      rw [List.cons_append, splitOnce, if_neg (Ne.symm h.1), ih h.2, Option.map_some]

theorem mapM_map_eq_some {α β : Type} {f : α → Option β} {g : β → α} (h : ∀ b, f (g b) = some b)
    (bs : List β) : (bs.map g).mapM f = some bs := by
  induction bs with
  | nil => rfl
  | cons b bs ih => rw [List.map_cons, List.mapM_cons, h, ih]; rfl

section Write

variable {write : UInt8 → List Char}

/-- A text, byte by byte. -/
def writeText (write : UInt8 → List Char) (s : String) : List Char := s.toUTF8.toList.flatMap write

/-- A key and its value. -/
def writePart (write : UInt8 → List Char) (part : String × String) : List Char :=
  writeText write part.1 ++ '=' :: writeText write part.2

/-- A list of keys and values as a query string. -/
def writeQuery (write : UInt8 → List Char) (query : List (String × String)) : List Char :=
  ['&'].intercalate (query.map (writePart write))

/-- What is written for a byte is decoded to it. -/
theorem WrittenAs.percentDecode_append {byte : UInt8} {cs : List Char} (h : WrittenAs byte cs)
    (rest : List Char) : percentDecode (cs ++ rest) = (percentDecode rest).map (byte :: ·) := by
  cases h with
  | plain free same => exact percentDecode_plain free same rest
  | triplet upper lower same => exact percentDecode_triplet upper lower same rest

theorem percentDecode_flatMap (hwrite : ∀ byte, WrittenAs byte (write byte)) (bytes : List UInt8) :
    percentDecode (bytes.flatMap write) = some bytes := by
  induction bytes with
  | nil => rfl
  | cons byte bytes ih =>
      rw [List.flatMap_cons, (hwrite byte).percentDecode_append, ih, Option.map_some]

/-- A text is read back. -/
theorem decodeText_writeText (hwrite : ∀ byte, WrittenAs byte (write byte)) (s : String) :
    decodeText (writeText write s) = some s := by
  unfold decodeText writeText
  rw [percentDecode_flatMap hwrite, Option.bind_eq_bind, Option.bind_some, toByteArray_toList,
    String.toUTF8_eq_toByteArray]
  exact dif_pos s.isValidUTF8

/-- What is written for a byte has no separator in it. -/
theorem WrittenAs.notMem {byte : UInt8} {cs : List Char} (h : WrittenAs byte cs) {c : Char}
    (hfree : unreserved c = false) (hdigit : hexValue c = none) (hpercent : c ≠ '%') :
    c ∉ cs := by
  cases h with
  | plain free same =>
      rw [List.mem_singleton]
      exact (ne_of_unreserved free hfree).symm
  | triplet upper lower same =>
      simp only [List.mem_cons, List.not_mem_nil, or_false, not_or]
      refine ⟨hpercent, ?_, ?_⟩
      · rintro rfl
        rw [hdigit] at upper
        cases upper
      · rintro rfl
        rw [hdigit] at lower
        cases lower

theorem notMem_writeText (hwrite : ∀ byte, WrittenAs byte (write byte)) {c : Char}
    (hfree : unreserved c = false) (hdigit : hexValue c = none) (hpercent : c ≠ '%') (s : String) :
    c ∉ writeText write s := by
  intro hmem
  obtain ⟨byte, -, hc⟩ := List.mem_flatMap.1 hmem
  exact (hwrite byte).notMem hfree hdigit hpercent hc

/-- A part is read back. -/
theorem parsePart_writePart (hwrite : ∀ byte, WrittenAs byte (write byte))
    (part : String × String) : parsePart (writePart write part) = some part := by
  have hkey : '=' ∉ writeText write part.1 :=
    notMem_writeText hwrite (by decide) (by decide) (by decide) part.1
  unfold parsePart writePart
  rw [splitOnce_append hkey]
  simp only [Option.bind_eq_bind, Option.bind_some, decodeText_writeText hwrite]
  rfl

/-- **A query string is read back**, whatever texts are its keys and values. -/
theorem parseQuery_writeQuery (hwrite : ∀ byte, WrittenAs byte (write byte))
    {query : List (String × String)} (hquery : query ≠ []) :
    parseQuery (String.ofList (writeQuery write query)) = some query := by
  have hparts : ∀ part ∈ query.map (writePart write), '&' ∉ part := by
    intro part hpart
    obtain ⟨e, -, rfl⟩ := List.mem_map.1 hpart
    have htext := notMem_writeText hwrite (c := '&') (by decide) (by decide) (by decide)
    unfold writePart
    rw [List.mem_append, List.mem_cons, not_or, not_or]
    exact ⟨htext e.1, by decide, htext e.2⟩
  unfold parseQuery writeQuery
  rw [String.toList_ofList, List.splitOn_intercalate '&' hparts (by simpa using hquery)]
  exact mapM_map_eq_some (parsePart_writePart hwrite) query

/-! ## What a query string is made of -/

theorem IsQuery.append {cs ds : List Char} (h : IsQuery cs) (hds : IsQuery ds) :
    IsQuery (cs ++ ds) := by
  induction h with
  | nil => exact hds
  | char free tail ih => exact .char free ih
  | triplet upper lower tail ih => exact .triplet upper lower ih

theorem isQuery_separator {c : Char} (h : c = '=' ∨ c = '&') {cs : List Char} (hcs : IsQuery cs) :
    IsQuery (c :: cs) := .char (.inr h) hcs

theorem WrittenAs.isQuery {byte : UInt8} {cs : List Char} (h : WrittenAs byte cs) :
    IsQuery cs := by
  cases h with
  | plain free same => exact .char (.inl free) .nil
  | triplet upper lower same =>
      exact .triplet (Option.isSome_of_eq_some upper) (Option.isSome_of_eq_some lower) .nil

theorem isQuery_flatMap (hwrite : ∀ byte, WrittenAs byte (write byte)) (bytes : List UInt8) :
    IsQuery (bytes.flatMap write) := by
  induction bytes with
  | nil => exact .nil
  | cons byte bytes ih =>
      rw [List.flatMap_cons]
      exact (hwrite byte).isQuery.append ih

/-- **A query string is made of unreserved characters, triplets and separators.** -/
theorem isQuery_writeQuery (hwrite : ∀ byte, WrittenAs byte (write byte))
    (query : List (String × String)) : IsQuery (writeQuery write query) := by
  have hpart : ∀ e, IsQuery (writePart write e) := fun e =>
    (isQuery_flatMap hwrite _).append (isQuery_separator (.inl rfl) (isQuery_flatMap hwrite _))
  unfold writeQuery
  induction query with
  | nil => exact .nil
  | cons e query ih =>
      cases query with
      | nil =>
          rw [List.map_cons, List.map_nil, List.intercalate_singleton]
          exact hpart e
      | cons e' query =>
          rw [List.map_cons, List.map_cons, List.intercalate_cons_cons, List.append_assoc,
            ← List.map_cons]
          exact (hpart e).append (isQuery_separator (.inr rfl) ih)

end Write

end Text
