import UnifiMcp.Json.Render
import Mathlib.Data.Rat.Denumerable
import Mathlib.Logic.Function.Basic

/-!
# The compact rendering is unambiguous

Two values with the same compact rendering are the same value (`compact_injective`).  Strings
and containers delimit themselves; a number does not, but what can follow a value inside
another one is a comma or a closing bracket, and neither is a character of a number.  So the
induction shows more than is wanted in the end: a rendering followed by such a character, or
by nothing, splits in one way only (`compact_append_inj`).
-/

namespace UnifiMcp

namespace Json

/-! ## String literals -/

/-- The number a hexadecimal digit in lower case stands for. -/
def hexValue (c : Char) : Nat := if c.isDigit then c.toNat - 48 else c.toNat - 87

/-- Read one character of a string literal back. -/
def unescape : List Char → Option (Char × List Char)
  | [] => none
  | c :: s =>
      if c = '\\' then
        match s with
        | 'u' :: _ :: _ :: x :: y :: s => some (.ofNat (16 * hexValue x + hexValue y), s)
        | 'n' :: s => some ('\n', s)
        | 'r' :: s => some ('\r', s)
        | 't' :: s => some ('\t', s)
        | 'b' :: s => some (.ofNat 8, s)
        | 'f' :: s => some (.ofNat 12, s)
        | d :: s => some (d, s)
        | [] => none
      else some (c, s)

theorem char_eq_ofNat {c : Char} {n : Nat} (h : c.toNat = n) : c = .ofNat n := by
  rw [← h, Char.ofNat_toNat]

theorem hexValue_digits : ∀ n < 32,
    16 * hexValue (Nat.digitChar (n / 16)) + hexValue (Nat.digitChar (n % 16)) = n := by
  decide

/-- What is escaped reads back as the character. -/
theorem unescape_escapeChar (c : Char) (s : List Char) :
    unescape ((escapeChar c).toList ++ s) = some (c, s) := by
  unfold escapeChar
  split_ifs with hquote hslash hn hr ht hb hf hcontrol
  · subst hquote; rfl
  · subst hslash; rfl
  · subst hn; rfl
  · subst hr; rfl
  · subst ht; rfl
  · rw [char_eq_ofNat hb]; rfl
  · rw [char_eq_ofNat hf]; rfl
  · have hdigits := hexValue_digits c.toNat hcontrol
    simp only [controlEscape, String.toList_append, String.toList_ofList, List.append_assoc]
    show some (Char.ofNat _, s) = _
    rw [hdigits, Char.ofNat_toNat]
  · rw [String.toList_singleton]
    exact if_neg hslash

theorem escapeChar_append_inj {c d : Char} {s t : List Char}
    (h : (escapeChar c).toList ++ s = (escapeChar d).toList ++ t) : c = d ∧ s = t := by
  have hread := congrArg unescape h
  rw [unescape_escapeChar, unescape_escapeChar] at hread
  exact Prod.mk.inj (Option.some.inj hread)

/-- No character is written so that it would close the literal. -/
theorem escapeChar_append_ne_quote (c : Char) (s t : List Char) :
    (escapeChar c).toList ++ s ≠ '"' :: t := by
  intro h
  have hread : some (c, s) = some ('"', t) := (unescape_escapeChar c s).symm.trans
    (congrArg unescape h)
  obtain rfl : c = '"' := (Prod.mk.inj (Option.some.inj hread)).1
  cases h

theorem escapes_append_inj {cs ds s t : List Char}
    (h : cs.flatMap (fun c => (escapeChar c).toList) ++ '"' :: s =
      ds.flatMap (fun c => (escapeChar c).toList) ++ '"' :: t) : cs = ds ∧ s = t := by
  induction cs generalizing ds with
  | nil =>
      cases ds with
      | nil => exact ⟨rfl, (List.cons.inj h).2⟩
      | cons d ds =>
          rw [List.flatMap_cons, List.append_assoc] at h
          exact absurd h.symm (escapeChar_append_ne_quote d _ _)
  | cons c cs ih =>
      cases ds with
      | nil =>
          rw [List.flatMap_cons, List.append_assoc] at h
          exact absurd h (escapeChar_append_ne_quote c _ _)
      | cons d ds =>
          rw [List.flatMap_cons, List.flatMap_cons, List.append_assoc, List.append_assoc] at h
          obtain ⟨rfl, hrest⟩ := escapeChar_append_inj h
          obtain ⟨rfl, hst⟩ := ih hrest
          exact ⟨rfl, hst⟩

theorem toList_quoted (k : String) :
    (quoted k).toList = '"' :: (k.toList.flatMap (fun c => (escapeChar c).toList) ++ ['"']) := by
  rw [quoted, String.toList_append, String.toList_append, String.toList_join, List.flatMap_map]
  rfl

theorem quoted_append_inj {k l : String} {s t : List Char}
    (h : (quoted k).toList ++ s = (quoted l).toList ++ t) : k = l ∧ s = t := by
  rw [toList_quoted, toList_quoted, List.cons_append, List.cons_append, List.append_assoc,
    List.append_assoc] at h
  obtain ⟨hkl, hst⟩ := escapes_append_inj (List.cons.inj h).2
  exact ⟨String.toList_inj.1 hkl, hst⟩

/-! ## Numbers -/

/-- The characters a number is written with. -/
def IsNumeral (c : Char) : Prop := c.isDigit = true ∨ c ∈ ['-', '+', '.', 'e']

instance : DecidablePred IsNumeral := fun c => by
  unfold IsNumeral
  infer_instance

/-- Numbers are written apart, and with such characters only. -/
structure NumberSyntax (number : Number → String) : Prop where
  injective : Function.Injective number
  nonempty : ∀ n, number n ≠ ""
  numeral : ∀ n, ∀ c ∈ (number n).toList, IsNumeral c

theorem repr_injective : Function.Injective Nat.repr := by
  intro m n h
  have hdigits := congrArg (fun s => Nat.ofDigitChars 10 s.toList 0) h
  simpa [Nat.repr_eq_ofList_toDigits] using hdigits

theorem isNumeral_of_mem_repr {n : Nat} {c : Char} (h : c ∈ n.repr.toList) : IsNumeral c := by
  rw [Nat.repr_eq_ofList_toDigits, String.toList_ofList] at h
  exact .inl (Nat.isDigit_of_mem_toDigits (by decide) (by decide) h)

/-- No number is written like one that has a sign put before it. -/
theorem repr_ne_append {n : Nat} {sign : String} {c : Char} (hsign : sign.toList = [c])
    (hc : c.isDigit = false) (s : String) : n.repr ≠ sign ++ s := by
  intro h
  have hmem : c ∈ n.repr.toList := by simp [h, hsign]
  rw [Nat.repr_eq_ofList_toDigits, String.toList_ofList] at hmem
  have hdigit := Nat.isDigit_of_mem_toDigits (by decide) (by decide) hmem
  simp [hc] at hdigit

/-- Integers in decimal, and a double by its place in a list of the rationals. -/
def writeNumber : Number → String
  | .posInt n => n.toNat.repr
  | .negInt n => "-" ++ (2 ^ 64 - n.toUInt64.toNat).repr
  | .float q => "." ++ (Encodable.encode q).repr

theorem numberSyntax_writeNumber : NumberSyntax writeNumber where
  injective := by
    intro m n h
    cases m with
    | posInt m =>
        cases n with
        | posInt n => rw [UInt64.toNat_inj.1 (repr_injective h)]
        | negInt n =>
            exact absurd h (repr_ne_append (by decide) (by decide : '-'.isDigit = false) _)
        | float q =>
            exact absurd h (repr_ne_append (by decide) (by decide : '.'.isDigit = false) _)
    | negInt m =>
        cases n with
        | posInt n =>
            exact absurd h.symm (repr_ne_append (by decide) (by decide : '-'.isDigit = false) _)
        | negInt n =>
            have hrepr := repr_injective (String.append_right_inj "-" |>.1 h)
            have hm := m.toUInt64.toNat_lt
            have hn := n.toUInt64.toNat_lt
            have hnat : m.toUInt64.toNat = n.toUInt64.toNat := by omega
            have hbits : m.toUInt64 = n.toUInt64 := UInt64.toNat_inj.1 hnat
            exact congrArg (fun bits => Number.negInt (.ofUInt64 bits)) hbits
        | float q => simpa [writeNumber] using congrArg String.toList h
    | float p =>
        cases n with
        | posInt n =>
            exact absurd h.symm (repr_ne_append (by decide) (by decide : '.'.isDigit = false) _)
        | negInt n => simpa [writeNumber] using congrArg String.toList h
        | float q =>
            have hrepr := repr_injective (String.append_right_inj "." |>.1 h)
            rw [Encodable.encode_injective hrepr]
  nonempty := by
    intro n h
    cases n <;> simp [writeNumber] at h
  numeral := by
    intro n c hc
    cases n with
    | posInt n => exact isNumeral_of_mem_repr hc
    | negInt n | float q =>
        rw [writeNumber, String.toList_append, List.mem_append] at hc
        rcases hc with hsign | hdigit
        · simp at hsign
          subst hsign
          decide
        · exact isNumeral_of_mem_repr hdigit

/-- A text that can follow a value: nothing, or what starts with a comma or a closing
bracket. -/
def Delimited (s : List Char) : Prop := ∀ c ∈ s.head?, ¬ IsNumeral c

theorem Delimited.takeWhile {s : List Char} (hs : Delimited s) {xs : List Char}
    (hxs : ∀ c ∈ xs, IsNumeral c) : (xs ++ s).takeWhile (IsNumeral ·) = xs := by
  rw [List.takeWhile_append_of_pos (by simpa using hxs)]
  cases s with
  | nil => simp
  | cons c s =>
      have hc : ¬ IsNumeral c := hs c rfl
      simp [hc]

theorem number_append_inj {number : Number → String} (hnumber : NumberSyntax number)
    {m n : Number} {s t : List Char} (hs : Delimited s) (ht : Delimited t)
    (h : (number m).toList ++ s = (number n).toList ++ t) : m = n ∧ s = t := by
  have hsame : (number m).toList = (number n).toList := by
    rw [← hs.takeWhile (hnumber.numeral m), ← ht.takeWhile (hnumber.numeral n), h]
  refine ⟨hnumber.injective (String.toList_inj.1 hsame), ?_⟩
  rw [hsame] at h
  exact List.append_cancel_left h

/-! ## Values -/

/-- The character a rendering starts with, a zero standing for every character of a
number. -/
def lead : Json → Char
  | .null => 'n'
  | .bool b => if b then 't' else 'f'
  | .num _ => '0'
  | .str _ => '"'
  | .arr _ => '['
  | .obj _ => '\x7b'

/-- Two values whose renderings start alike. -/
inductive Alike : Json → Json → Prop where
  | same (v : Json) : Alike v v
  | num (m n : Number) : Alike (.num m) (.num n)
  | str (k l : String) : Alike (.str k) (.str l)
  | arr (items items' : List Json) : Alike (.arr items) (.arr items')
  | obj (fields fields' : List (String × Json)) : Alike (.obj fields) (.obj fields')

theorem alike_of_lead {v w : Json} (h : v.lead = w.lead) : Alike v w := by
  rcases v with _ | (_ | _) | m | k | items | fields <;>
    rcases w with _ | (_ | _) | n | l | items' | fields' <;>
    first | constructor | simp [lead] at h

section

variable {number : Number → String} (hnumber : NumberSyntax number)

include hnumber

theorem lead_of_head (v : Json) (s : List Char) :
    ((compact number v).toList ++ s).head?.map (fun c => if IsNumeral c then '0' else c) =
      some v.lead := by
  cases v with
  | null => simp [compact, lead, IsNumeral]
  | bool b => cases b <;> simp [compact, lead, IsNumeral]
  | num n =>
      rw [compact]
      cases hn : (number n).toList with
      | nil =>
          have hempty : number n = "" := String.toList_inj.1 (hn.trans String.toList_empty.symm)
          exact absurd hempty (hnumber.nonempty n)
      | cons c rest =>
          have hc : IsNumeral c := hnumber.numeral n c (by rw [hn]; exact List.mem_cons_self)
          simp [hc, lead]
  | str k => simp [compact, toList_quoted, lead, IsNumeral]
  | arr items => cases items <;> simp [compact, lead, IsNumeral]
  | obj fields => cases fields <;> simp [compact, lead, IsNumeral]

theorem alike_of_append {v w : Json} {s t : List Char}
    (h : (compact number v).toList ++ s = (compact number w).toList ++ t) : Alike v w := by
  have hlead := lead_of_head hnumber v s
  rw [h, lead_of_head hnumber w t] at hlead
  exact alike_of_lead (Option.some.inj hlead).symm

/-- No rendering starts with the bracket that closes an empty array. -/
theorem compact_append_ne_bracket (v : Json) (s t : List Char) :
    (compact number v).toList ++ s ≠ ']' :: t := by
  intro h
  have hlead := lead_of_head hnumber v s
  rw [h] at hlead
  have hbracket : v.lead = ']' := (Option.some.inj hlead).symm
  rcases v with _ | (_ | _) | m | k | items | fields <;> simp [lead] at hbracket

end

/-- What follows the first item of an array. -/
theorem delimited_compactItems (number : Number → String) (items : List Json) (s : List Char) :
    Delimited ((compactItems number items).toList ++ ']' :: s) := by
  cases items <;> simp [compactItems, Delimited, IsNumeral]

/-- What follows the first field of an object. -/
theorem delimited_compactFields (number : Number → String) (fields : List (String × Json))
    (s : List Char) : Delimited ((compactFields number fields).toList ++ '\x7d' :: s) := by
  cases fields <;> simp [compactFields, Delimited, IsNumeral]

/-- A value whose rendering, followed by nothing of a number, is read in one way only. -/
def ReadsOneWay (number : Number → String) (v : Json) : Prop :=
  ∀ (w : Json) (s t : List Char), Delimited s → Delimited t →
    (compact number v).toList ++ s = (compact number w).toList ++ t → v = w ∧ s = t

theorem compactItems_append_inj {number : Number → String} {vs ws : List Json}
    (hvs : ∀ v ∈ vs, ReadsOneWay number v) {s t : List Char}
    (h : (compactItems number vs).toList ++ ']' :: s =
      (compactItems number ws).toList ++ ']' :: t) : vs = ws ∧ s = t := by
  induction vs generalizing ws with
  | nil =>
      cases ws with
      | nil => exact ⟨rfl, (List.cons.inj (List.append_cancel_left h)).2⟩
      | cons w ws => simp [compactItems] at h
  | cons v vs ih =>
      cases ws with
      | nil => simp [compactItems] at h
      | cons w ws =>
          simp only [compactItems, String.toList_append, List.append_assoc] at h
          obtain ⟨rfl, hrest⟩ := hvs v List.mem_cons_self w _ _
            (delimited_compactItems number vs _) (delimited_compactItems number ws _)
            (List.append_cancel_left h)
          obtain ⟨rfl, hst⟩ := ih (fun v' hv' => hvs v' (List.mem_cons_of_mem _ hv')) hrest
          exact ⟨rfl, hst⟩

theorem compactFields_append_inj {number : Number → String} {fs gs : List (String × Json)}
    (hfs : ∀ f ∈ fs, ReadsOneWay number f.2) {s t : List Char}
    (h : (compactFields number fs).toList ++ '\x7d' :: s =
      (compactFields number gs).toList ++ '\x7d' :: t) : fs = gs ∧ s = t := by
  induction fs generalizing gs with
  | nil =>
      cases gs with
      | nil => exact ⟨rfl, (List.cons.inj (List.append_cancel_left h)).2⟩
      | cons g gs => simp [compactFields] at h
  | cons f fs ih =>
      cases gs with
      | nil => simp [compactFields] at h
      | cons g gs =>
          obtain ⟨k, v⟩ := f
          obtain ⟨l, w⟩ := g
          simp only [compactFields, String.toList_append, List.append_assoc] at h
          obtain ⟨rfl, hvalue⟩ := quoted_append_inj (List.append_cancel_left h)
          obtain ⟨rfl, hrest⟩ := hfs (k, v) List.mem_cons_self w _ _
            (delimited_compactFields number fs _) (delimited_compactFields number gs _)
            (List.append_cancel_left hvalue)
          obtain ⟨rfl, hst⟩ := ih (fun f' hf' => hfs f' (List.mem_cons_of_mem _ hf')) hrest
          exact ⟨rfl, hst⟩

section

variable {number : Number → String} (hnumber : NumberSyntax number)

include hnumber

theorem readsOneWay_arr {vs : List Json} (hvs : ∀ v ∈ vs, ReadsOneWay number v) :
    ReadsOneWay number (.arr vs) := by
  intro w s t hs ht h
  cases alike_of_append hnumber h with
  | same => exact ⟨rfl, List.append_cancel_left h⟩
  | arr _ ws =>
      cases vs with
      | nil =>
          cases ws with
          | nil => exact ⟨rfl, List.append_cancel_left h⟩
          | cons w ws =>
              simp only [compact, String.toList_append, List.append_assoc] at h
              exact absurd (List.cons.inj h).2.symm (compact_append_ne_bracket hnumber w _ _)
      | cons v vs =>
          cases ws with
          | nil =>
              simp only [compact, String.toList_append, List.append_assoc] at h
              exact absurd (List.cons.inj h).2 (compact_append_ne_bracket hnumber v _ _)
          | cons w ws =>
              simp only [compact, String.toList_append, List.append_assoc] at h
              obtain ⟨rfl, hrest⟩ := hvs v List.mem_cons_self w _ _
                (delimited_compactItems number vs _) (delimited_compactItems number ws _)
                (List.append_cancel_left h)
              obtain ⟨rfl, hst⟩ := compactItems_append_inj
                (fun v' hv' => hvs v' (List.mem_cons_of_mem _ hv')) hrest
              exact ⟨rfl, hst⟩

theorem readsOneWay_obj {fs : List (String × Json)}
    (hfs : ∀ f ∈ fs, ReadsOneWay number f.2) : ReadsOneWay number (.obj fs) := by
  intro w s t hs ht h
  cases alike_of_append hnumber h with
  | same => exact ⟨rfl, List.append_cancel_left h⟩
  | obj _ gs =>
      cases fs with
      | nil =>
          cases gs with
          | nil => exact ⟨rfl, List.append_cancel_left h⟩
          | cons g gs => simp [compact, toList_quoted] at h
      | cons f fs =>
          cases gs with
          | nil => simp [compact, toList_quoted] at h
          | cons g gs =>
              obtain ⟨k, v⟩ := f
              obtain ⟨l, w⟩ := g
              simp only [compact, String.toList_append, List.append_assoc] at h
              obtain ⟨rfl, hvalue⟩ := quoted_append_inj (List.append_cancel_left h)
              obtain ⟨rfl, hrest⟩ := hfs (k, v) List.mem_cons_self w _ _
                (delimited_compactFields number fs _) (delimited_compactFields number gs _)
                (List.append_cancel_left hvalue)
              obtain ⟨rfl, hst⟩ := compactFields_append_inj
                (fun f' hf' => hfs f' (List.mem_cons_of_mem _ hf')) hrest
              exact ⟨rfl, hst⟩

theorem readsOneWay : (v : Json) → ReadsOneWay number v
  | .null | .bool _ => by
      intro w s t hs ht h
      cases alike_of_append hnumber h
      exact ⟨rfl, List.append_cancel_left h⟩
  | .num m => by
      intro w s t hs ht h
      cases alike_of_append hnumber h with
      | same => exact ⟨rfl, List.append_cancel_left h⟩
      | num _ n =>
          obtain ⟨rfl, hst⟩ := number_append_inj hnumber hs ht h
          exact ⟨rfl, hst⟩
  | .str k => by
      intro w s t hs ht h
      cases alike_of_append hnumber h with
      | same => exact ⟨rfl, List.append_cancel_left h⟩
      | str _ l =>
          obtain ⟨rfl, hst⟩ := quoted_append_inj h
          exact ⟨rfl, hst⟩
  | .arr vs => readsOneWay_arr hnumber fun v hv => readsOneWay v
  | .obj fs => readsOneWay_obj hnumber fun f hf => readsOneWay f.2
termination_by v => sizeOf v
decreasing_by
  · have hlt := List.sizeOf_lt_of_mem hv
    simp only [Json.arr.sizeOf_spec]
    omega
  · have hlt := List.sizeOf_lt_of_mem hf
    have hpair : sizeOf f = 1 + sizeOf f.1 + sizeOf f.2 := Prod.mk.sizeOf_spec f.1 f.2
    simp only [Json.obj.sizeOf_spec]
    omega

end

/-- **Two values are written alike only if they are the same value.** -/
theorem compact_injective {number : Number → String} (hnumber : NumberSyntax number) :
    Function.Injective (compact number) := by
  intro v w h
  have hend : Delimited [] := by simp [Delimited]
  exact (readsOneWay hnumber v w [] [] hend hend (by rw [h])).1

end Json

end UnifiMcp
