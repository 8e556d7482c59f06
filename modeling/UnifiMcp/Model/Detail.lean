import Mathlib.Data.List.TakeDrop
import UnifiMcp.Model.Error
import UnifiMcp.Text.Utf8

/-!
# What an error shows of a server's text

`sanitizeDetail` leaves out the control characters of a text, which it always does
(`printable_sanitizeDetail`), and shows so many of the others.  It counts them in characters where
the bound is meant in bytes, and it marks a text as cut whenever it has got shorter, also when
nothing but control characters went.  `showsDetail_iff` says for which texts neither matters.
-/

namespace UnifiMcp

open Text

/-- The characters of a text that are no control characters. -/
def keptDetail (input : String) : List Char := input.toList.filter fun c => !isControl c

/-- What is shown of a text. -/
def shownDetail (input : String) : String :=
  String.ofList ((keptDetail input).take maxDetailBytes)

/-- What says that a text was cut. -/
def truncationMarker : String := " [truncated]"

variable {input : String}

/-! ## The parts of a detail -/

/-- The shown part of a text, with the marker if it is shorter than the text. -/
theorem sanitizeDetail_eq (input : String) :
    sanitizeDetail input =
      if (shownDetail input).utf8ByteSize < input.utf8ByteSize then
        shownDetail input ++ truncationMarker
      else shownDetail input := rfl

theorem sanitizeDetail_cases (input : String) :
    sanitizeDetail input = shownDetail input ∨
      sanitizeDetail input = shownDetail input ++ truncationMarker := by
  rw [sanitizeDetail_eq]
  split_ifs
  · exact .inr rfl
  · exact .inl rfl

theorem append_truncationMarker_ne (s : String) : s ++ truncationMarker ≠ s := by
  intro h
  have hsize := congrArg String.utf8ByteSize h
  have hmarker : truncationMarker.utf8ByteSize = 12 := by decide
  rw [String.utf8ByteSize_append, hmarker] at hsize
  omega

theorem utf8ByteSize_shownDetail (input : String) :
    (shownDetail input).utf8ByteSize = bytes ((keptDetail input).take maxDetailBytes) :=
  utf8ByteSize_ofList _

/-- A text is marked when a control character was left out or the others were cut. -/
theorem sanitizeDetail_marked_iff :
    sanitizeDetail input = shownDetail input ++ truncationMarker ↔
      (∃ c ∈ input.toList, isControl c = true) ∨ maxDetailBytes < (keptDetail input).length := by
  have hshorter : (shownDetail input).utf8ByteSize < input.utf8ByteSize ↔
      (∃ c ∈ input.toList, (!isControl c) = false) ∨
        maxDetailBytes < (keptDetail input).length := by
    rw [utf8ByteSize_eq_bytes input, utf8ByteSize_shownDetail]
    exact bytes_lt_iff _ _
  simp only [Bool.not_eq_false'] at hshorter
  rw [sanitizeDetail_eq, ← hshorter]
  split_ifs with hlt
  · exact iff_of_true rfl hlt
  · exact iff_of_false (append_truncationMarker_ne _).symm hlt

/-- Some of the text is cut when it has more characters to show than the bound. -/
theorem shownDetail_ne_iff :
    shownDetail input ≠ String.ofList (keptDetail input) ↔
      maxDetailBytes < (keptDetail input).length := by
  unfold shownDetail
  rw [ne_eq, String.ofList_inj, List.take_eq_self_iff, Nat.not_le]

theorem isControl_of_mem_keptDetail {c : Char} (h : c ∈ keptDetail input) :
    isControl c = false := by
  simpa using (List.mem_filter.1 h).2

/-- Without a control character the whole text is kept. -/
theorem keptDetail_eq_toList (h : ∀ c ∈ input.toList, isControl c = false) :
    keptDetail input = input.toList :=
  List.filter_eq_self.2 fun c hc => by rw [h c hc]; rfl

/-- **No control character comes through**, whatever the server sends. -/
theorem printable_sanitizeDetail (input : String) :
    ∀ c ∈ (sanitizeDetail input).toList, isControl c = false := by
  have hshown : ∀ c ∈ (shownDetail input).toList, isControl c = false := by
    intro c hc
    rw [shownDetail, String.toList_ofList] at hc
    exact isControl_of_mem_keptDetail (List.mem_of_mem_take hc)
  rcases sanitizeDetail_cases input with hplain | hmarked
  · rw [hplain]
    exact hshown
  · have hmarker : ∀ c ∈ truncationMarker.toList, isControl c = false := by
      have hall : truncationMarker.toList.all (fun c => !isControl c) = true := by decide
      simpa using hall
    rw [hmarked, String.toList_append]
    exact List.forall_mem_append.2 ⟨hshown, hmarker⟩

/-! ## Which texts are shown right -/

/-- What is shown has no control character, takes no more bytes of the text than the bound, and is
marked exactly when some of the text that is no control character was cut. -/
structure ShowsDetail (input : String) : Prop where
  parts : sanitizeDetail input = shownDetail input ∨
    sanitizeDetail input = shownDetail input ++ truncationMarker
  printable : ∀ c ∈ (sanitizeDetail input).toList, isControl c = false
  bounded : (shownDetail input).utf8ByteSize ≤ maxDetailBytes
  marked : sanitizeDetail input = shownDetail input ++ truncationMarker ↔
    shownDetail input ≠ String.ofList (keptDetail input)

/-- The text has no control character and fits the bound in bytes, or it has more characters to
show than the bound and the first of these, up to the bound, are ASCII. -/
def FitsDetail (input : String) : Prop :=
  (∀ c ∈ input.toList, isControl c = false) ∧ input.utf8ByteSize ≤ maxDetailBytes ∨
    maxDetailBytes < (keptDetail input).length ∧
      ∀ c ∈ (keptDetail input).take maxDetailBytes, c.toNat < 128

/-- The mark is right when there is no control character or the text is cut anyway. -/
theorem marked_iff :
    (sanitizeDetail input = shownDetail input ++ truncationMarker ↔
        shownDetail input ≠ String.ofList (keptDetail input)) ↔
      (∀ c ∈ input.toList, isControl c = false) ∨ maxDetailBytes < (keptDetail input).length := by
  have hcontrol : (∀ c ∈ input.toList, isControl c = false) ↔
      ¬ ∃ c ∈ input.toList, isControl c = true := by simp
  rw [sanitizeDetail_marked_iff, shownDetail_ne_iff, hcontrol, or_iff_right_iff_imp,
    imp_iff_not_or]

/-- A text that is cut stays within the bound when what is shown of it is ASCII. -/
theorem utf8ByteSize_shownDetail_le_iff (h : maxDetailBytes < (keptDetail input).length) :
    (shownDetail input).utf8ByteSize ≤ maxDetailBytes ↔
      ∀ c ∈ (keptDetail input).take maxDetailBytes, c.toNat < 128 := by
  have hlength : ((keptDetail input).take maxDetailBytes).length = maxDetailBytes :=
    List.length_take_of_le (Nat.le_of_lt h)
  have hle := length_le_bytes ((keptDetail input).take maxDetailBytes)
  rw [← bytes_eq_length_iff, utf8ByteSize_shownDetail]
  omega

/-- **Which texts of a server are shown right.**  Those without a control character that fit the
bound in bytes, and those that are cut and begin with ASCII characters up to the bound. -/
theorem showsDetail_iff (input : String) : ShowsDetail input ↔ FitsDetail input := by
  have hall : (∀ c ∈ input.toList, isControl c = false) →
      (keptDetail input).length ≤ maxDetailBytes → shownDetail input = input := by
    intro hcontrol hshort
    rw [shownDetail, List.take_of_length_le hshort, keptDetail_eq_toList hcontrol,
      String.ofList_toList]
  constructor
  · intro h
    by_cases hcut : maxDetailBytes < (keptDetail input).length
    · exact .inr ⟨hcut, (utf8ByteSize_shownDetail_le_iff hcut).1 h.bounded⟩
    · have hcontrol := (marked_iff.1 h.marked).resolve_right hcut
      have hbounded := h.bounded
      rw [hall hcontrol (Nat.not_lt.1 hcut)] at hbounded
      exact .inl ⟨hcontrol, hbounded⟩
  · rintro (⟨hcontrol, hfits⟩ | ⟨hcut, hascii⟩)
    · have hshort : (keptDetail input).length ≤ maxDetailBytes := by
        rw [utf8ByteSize_eq_bytes] at hfits
        rw [keptDetail_eq_toList hcontrol]
        exact Nat.le_trans (length_le_bytes _) hfits
      refine ⟨sanitizeDetail_cases input, printable_sanitizeDetail input, ?_,
        marked_iff.2 (.inl hcontrol)⟩
      rw [hall hcontrol hshort]
      exact hfits
    · exact ⟨sanitizeDetail_cases input, printable_sanitizeDetail input,
        (utf8ByteSize_shownDetail_le_iff hcut).2 hascii, marked_iff.2 (.inr hcut)⟩

/-- **A text can be shown wrong**: one that has lost its line break is marked as cut, and one of
151 letters of two bytes is shown over the bound. -/
theorem not_showsDetail_notFound :
    ¬ ShowsDetail "not found\n" ∧ ¬ ShowsDetail (String.ofList (List.replicate 151 'é')) := by
  refine ⟨fun h => ?_, fun h => ?_⟩
  · rcases marked_iff.1 h.marked with hnone | hcut
    · exact absurd (hnone '\n' (by decide)) (by decide)
    · exact absurd hcut (by decide)
  · have hkept : keptDetail (String.ofList (List.replicate 151 'é')) = List.replicate 151 'é' := by
      have hcontrol : isControl 'é' = false := by decide
      rw [keptDetail_eq_toList, String.toList_ofList]
      rw [String.toList_ofList]
      exact fun c hc => List.eq_of_mem_replicate hc ▸ hcontrol
    have hbounded := h.bounded
    have hsize : ('é' : Char).utf8Size = 2 := by decide
    rw [utf8ByteSize_shownDetail, hkept, List.take_replicate, bytes_replicate, hsize] at hbounded
    exact absurd hbounded (by decide)

end UnifiMcp
