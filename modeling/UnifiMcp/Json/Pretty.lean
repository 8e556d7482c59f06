import UnifiMcp.Json.Unambiguous

/-!
# The pretty rendering is unambiguous

The two renderings differ in blanks outside of string literals only.  `strip` is a reader with
three states that leaves these out, and read so a pretty rendering is the compact one of the same
value, at every depth (`strip_pretty`).  Since the compact rendering is unambiguous, the pretty
one is: `pretty_injective`.
-/

namespace UnifiMcp

namespace Json

/-- Where a reader of a rendering is: outside of the literals, in one, or after a backslash in
one. -/
inductive ReaderState where
  | outside
  | literal
  | escaped

/-- Leave out the blanks and new lines outside of literals. -/
def strip : ReaderState → List Char → List Char
  | _, [] => []
  | .outside, c :: s =>
      if c = ' ' ∨ c = '\n' then strip .outside s
      else if c = '"' then c :: strip .literal s
      else c :: strip .outside s
  | .literal, c :: s =>
      if c = '\\' then c :: strip .escaped s
      else if c = '"' then c :: strip .outside s
      else c :: strip .literal s
  | .escaped, c :: s => c :: strip .literal s

/-- Read outside of literals, a text comes to another one, whatever follows it. -/
def StripsTo (s t : List Char) : Prop :=
  ∀ rest, strip .outside (s ++ rest) = t ++ strip .outside rest

theorem StripsTo.append {s s' t t' : List Char} (h : StripsTo s t) (h' : StripsTo s' t') :
    StripsTo (s ++ s') (t ++ t') := by
  intro rest
  rw [List.append_assoc, h, h', List.append_assoc]

theorem stripsTo_nil : StripsTo [] [] := fun _ => rfl

/-- A text without blanks and quotes is left as it is. -/
theorem stripsTo_of_plain {s : List Char} (h : ∀ c ∈ s, c ≠ ' ' ∧ c ≠ '\n' ∧ c ≠ '"') :
    StripsTo s s := by
  intro rest
  induction s with
  | nil => rfl
  | cons c s ih =>
      obtain ⟨hblank, hline, hquote⟩ := h c List.mem_cons_self
      have hrest := ih fun c' hc' => h c' (List.mem_cons_of_mem _ hc')
      rw [List.cons_append, strip, if_neg (by simp [hblank, hline]), if_neg hquote, hrest,
        List.cons_append]

/-! ## Literals -/

/-- In a literal, a character that neither ends it nor escapes another. -/
theorem strip_literal_cons {c : Char} (hslash : c ≠ '\\') (hquote : c ≠ '"') (s : List Char) :
    strip .literal (c :: s) = c :: strip .literal s := by
  rw [strip, if_neg hslash, if_neg hquote]

/-- An escape is two characters. -/
theorem strip_literal_escape (c : Char) (s : List Char) :
    strip .literal ('\\' :: c :: s) = '\\' :: c :: strip .literal s := by
  rw [strip, if_pos rfl, strip]

theorem digitChar_plain : ∀ n < 16, Nat.digitChar n ≠ '\\' ∧ Nat.digitChar n ≠ '"' := by
  decide

/-- What is written for a character stays in the literal. -/
theorem strip_escapeChar (c : Char) (s : List Char) :
    strip .literal ((escapeChar c).toList ++ s) = (escapeChar c).toList ++ strip .literal s := by
  unfold escapeChar
  split_ifs with hquote hslash hn hr ht hb hf hcontrol
  iterate 7 exact strip_literal_escape _ s
  · obtain ⟨hx, hx'⟩ := digitChar_plain (c.toNat / 16) (by omega)
    obtain ⟨hy, hy'⟩ := digitChar_plain (c.toNat % 16) (by omega)
    have hescape : (controlEscape c).toList = ['\\', 'u', '0', '0',
        Nat.digitChar (c.toNat / 16), Nat.digitChar (c.toNat % 16)] := by
      rw [controlEscape, String.toList_append]
      simp
    rw [hescape]
    simp only [List.cons_append, List.nil_append]
    rw [strip_literal_escape, strip_literal_cons (by decide) (by decide),
      strip_literal_cons (by decide) (by decide), strip_literal_cons hx hx',
      strip_literal_cons hy hy']
  · rw [String.toList_singleton]
    exact strip_literal_cons hslash hquote s

theorem strip_escapes (cs s : List Char) :
    strip .literal (cs.flatMap (fun c => (escapeChar c).toList) ++ s) =
      cs.flatMap (fun c => (escapeChar c).toList) ++ strip .literal s := by
  induction cs with
  | nil => rfl
  | cons c cs ih =>
      rw [List.flatMap_cons, List.append_assoc, strip_escapeChar, ih, List.append_assoc]

/-- **A literal is left as it is.** -/
theorem stripsTo_quoted (k : String) : StripsTo (quoted k).toList (quoted k).toList := by
  intro rest
  have hopen : ∀ s, strip .outside ('"' :: s) = '"' :: strip .literal s := by
    intro s
    rw [strip, if_neg (by decide), if_pos rfl]
  have hclose : ∀ s, strip .literal ('"' :: s) = '"' :: strip .outside s := by
    intro s
    rw [strip, if_neg (by decide), if_pos rfl]
  rw [toList_quoted, List.cons_append, List.append_assoc, hopen, strip_escapes,
    List.singleton_append, hclose]
  simp

/-! ## Numbers and separators -/

theorem stripsTo_number {number : Number → String} (hnumber : NumberSyntax number) (n : Number) :
    StripsTo (number n).toList (number n).toList := by
  refine stripsTo_of_plain fun c hc => ?_
  have hnumeral := hnumber.numeral n c hc
  refine ⟨?_, ?_, ?_⟩
  all_goals
    rintro rfl
    exact absurd hnumeral (by decide)

theorem toList_newline (depth : Nat) :
    (newline depth).toList = '\n' :: List.replicate (2 * depth) ' ' := by
  have hpushn : ∀ n, ("".pushn ' ' n).toList = List.replicate n ' ' := by
    intro n
    rw [String.pushn_eq_repeat_push]
    induction n with
    | zero => rfl
    | succ n ih => rw [Nat.repeat, String.toList_push, ih, List.replicate_succ']
  rw [newline, String.toList_append, hpushn]
  rfl

theorem stripsTo_blanks (n : Nat) : StripsTo (List.replicate n ' ') [] := by
  intro rest
  induction n with
  | zero => rfl
  | succ n ih =>
      rw [List.replicate_succ, List.cons_append, strip, if_pos (.inl rfl), ih]

theorem stripsTo_newline (depth : Nat) : StripsTo (newline depth).toList [] := by
  intro rest
  rw [toList_newline, List.cons_append, strip, if_pos (.inr rfl), stripsTo_blanks]

/-- A separator, and what is left of it. -/
theorem stripsTo_colon : StripsTo (": " : String).toList (":" : String).toList := by
  intro rest
  have hcolon : (": " : String).toList = [':', ' '] := by simp
  rw [hcolon]
  calc strip .outside (':' :: ([' '] ++ rest))
      = ':' :: strip .outside ([' '] ++ rest) := by
        rw [strip, if_neg (by decide), if_neg (by decide)]
    _ = ':' :: strip .outside rest := by
        rw [List.singleton_append, strip, if_pos (.inl rfl)]

/-! ## Values -/

/-- The words and the punctuation of a rendering. -/
def marks : List String :=
  ["null", "true", "false", "[]", "\x7b\x7d", ",", "[", "]", "\x7b", "\x7d"]

theorem stripsTo_mark (mark : String) (h : mark ∈ marks) : StripsTo mark.toList mark.toList := by
  refine stripsTo_of_plain ?_
  simp only [marks, List.mem_cons, List.not_mem_nil, or_false] at h
  rcases h with rfl | rfl | rfl | rfl | rfl | rfl | rfl | rfl | rfl | rfl
  all_goals simp

/-- At every depth the value is written as it is compactly, but for blanks. -/
def WritesAlike (number : Number → String) (v : Json) : Prop :=
  ∀ depth, StripsTo (pretty number depth v).toList (compact number v).toList

section

variable {number : Number → String}

theorem stripsTo_prettyItems {vs : List Json} (hvs : ∀ v ∈ vs, WritesAlike number v)
    (depth : Nat) :
    StripsTo (prettyItems number depth vs).toList (compactItems number vs).toList := by
  induction vs with
  | nil => exact stripsTo_nil
  | cons v vs ih =>
      have hcomma := stripsTo_mark "," (by simp [marks])
      simp only [prettyItems, compactItems, String.toList_append]
      have hfirst := (hcomma.append (stripsTo_newline depth)).append
        (hvs v List.mem_cons_self depth)
      rw [List.append_nil] at hfirst
      exact hfirst.append (ih fun v' hv' => hvs v' (List.mem_cons_of_mem _ hv'))

theorem stripsTo_prettyFields {fs : List (String × Json)}
    (hfs : ∀ f ∈ fs, WritesAlike number f.2) (depth : Nat) :
    StripsTo (prettyFields number depth fs).toList (compactFields number fs).toList := by
  induction fs with
  | nil => exact stripsTo_nil
  | cons f fs ih =>
      obtain ⟨k, v⟩ := f
      have hcomma := stripsTo_mark "," (by simp [marks])
      simp only [prettyFields, compactFields, String.toList_append]
      have hline := hcomma.append (stripsTo_newline depth)
      rw [List.append_nil] at hline
      have hfield := ((hline.append (stripsTo_quoted k)).append stripsTo_colon).append
        (hfs (k, v) List.mem_cons_self depth)
      exact hfield.append (ih fun f' hf' => hfs f' (List.mem_cons_of_mem _ hf'))

theorem writesAlike_arr {vs : List Json} (hvs : ∀ v ∈ vs, WritesAlike number v) :
    WritesAlike number (.arr vs) := by
  intro depth
  have hopen := stripsTo_mark "[" (by simp [marks])
  have hclose := stripsTo_mark "]" (by simp [marks])
  cases vs with
  | nil => exact stripsTo_mark "[]" (by simp [marks])
  | cons v vs =>
      simp only [pretty, compact, String.toList_append]
      have hstart := hopen.append (stripsTo_newline (depth + 1))
      rw [List.append_nil] at hstart
      have hfirst := hstart.append (hvs v List.mem_cons_self (depth + 1))
      have hitems := hfirst.append (stripsTo_prettyItems
        (fun v' hv' => hvs v' (List.mem_cons_of_mem _ hv')) (depth + 1))
      have hend := hitems.append (stripsTo_newline depth)
      rw [List.append_nil] at hend
      exact hend.append hclose

theorem writesAlike_obj {fs : List (String × Json)} (hfs : ∀ f ∈ fs, WritesAlike number f.2) :
    WritesAlike number (.obj fs) := by
  intro depth
  have hopen := stripsTo_mark "\x7b" (by simp [marks])
  have hclose := stripsTo_mark "\x7d" (by simp [marks])
  cases fs with
  | nil => exact stripsTo_mark "\x7b\x7d" (by simp [marks])
  | cons f fs =>
      obtain ⟨k, v⟩ := f
      simp only [pretty, compact, String.toList_append]
      have hstart := hopen.append (stripsTo_newline (depth + 1))
      rw [List.append_nil] at hstart
      have hfirst := ((hstart.append (stripsTo_quoted k)).append stripsTo_colon).append
        (hfs (k, v) List.mem_cons_self (depth + 1))
      have hfields := hfirst.append (stripsTo_prettyFields
        (fun f' hf' => hfs f' (List.mem_cons_of_mem _ hf')) (depth + 1))
      have hend := hfields.append (stripsTo_newline depth)
      rw [List.append_nil] at hend
      exact hend.append hclose

/-- **The two renderings differ in blanks only.** -/
theorem strip_pretty (hnumber : NumberSyntax number) : (v : Json) → WritesAlike number v
  | .null => fun _ => stripsTo_mark "null" (by simp [marks])
  | .bool true => fun _ => stripsTo_mark "true" (by simp [marks])
  | .bool false => fun _ => stripsTo_mark "false" (by simp [marks])
  | .num n => fun _ => stripsTo_number hnumber n
  | .str k => fun _ => stripsTo_quoted k
  | .arr vs => writesAlike_arr fun v hv => strip_pretty hnumber v
  | .obj fs => writesAlike_obj fun f hf => strip_pretty hnumber f.2
termination_by v => sizeOf v
decreasing_by
  · have hlt := List.sizeOf_lt_of_mem hv
    simp only [Json.arr.sizeOf_spec]
    omega
  · have hlt := List.sizeOf_lt_of_mem hf
    have hpair : sizeOf f = 1 + sizeOf f.1 + sizeOf f.2 := Prod.mk.sizeOf_spec f.1 f.2
    simp only [Json.obj.sizeOf_spec]
    omega

/-- **Two values are written alike over several lines only if they are the same value.** -/
theorem pretty_injective (hnumber : NumberSyntax number) (depth : Nat) :
    Function.Injective (pretty number depth) := by
  intro v w h
  have hv := strip_pretty hnumber v depth []
  rw [h, strip_pretty hnumber w depth []] at hv
  exact compact_injective hnumber (String.toList_inj.1 (List.append_cancel_right hv)).symm

end

end Json

end UnifiMcp
