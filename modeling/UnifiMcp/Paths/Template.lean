import Mathlib.Data.List.Forall2
import Mathlib.Tactic.Common
import UnifiMcp.Collections.Mapped

/-!
# Path templates

A template is a path some of whose segments are placeholders in braces.  Expanding it keeps its
other segments and puts the value of a parameter in the place of each placeholder;
`KeepsSegments` says that no value leaves the segment it is put into.  A path below a root that
is expanded like this stays below that root (`TemplateUnder.under_of_fills`).  `fillTemplate`
is such an expansion.
-/

namespace Paths

/-- The segments of a path; the first segment of an absolute path is empty. -/
def segments (path : String) : List (List Char) := path.toList.splitOn '/'

/-- Percent-encoded dots read as dots. -/
def decodeDots : List Char → List Char
  | '%' :: '2' :: 'e' :: rest | '%' :: '2' :: 'E' :: rest => '.' :: decodeDots rest
  | c :: rest => c :: decodeDots rest
  | [] => []

/-- A segment that stands for a directory itself or for the one above it. -/
def isDotSegment (s : List Char) : Bool :=
  decodeDots s = ['.'] || decodeDots s = ['.', '.']

/-- A character that neither ends its segment or the path nor is a control character. -/
def isSegmentChar (c : Char) : Bool :=
  c ∉ ['/', '\\', '?', '#'] && 32 ≤ c.toNat && c.toNat ≠ 127

/-- A segment that stays where it stands. -/
def staysInSegment (s : List Char) : Bool :=
  !s.isEmpty && !isDotSegment s && s.all isSegmentChar

/-- A segment in the place of which a parameter is put. -/
def isPlaceholder (s : List Char) : Bool := s.head? = some '{' && s.getLast? = some '}'

/-- What may stand in a path for a segment of its template. -/
def Fills (s s' : List Char) : Prop :=
  if isPlaceholder s then staysInSegment s' = true else s' = s

instance (s s' : List Char) : Decidable (Fills s s') :=
  inferInstanceAs (Decidable (if isPlaceholder s then staysInSegment s' = true else s' = s))

/-- An expansion of templates that puts no parameter outside its own segment. -/
structure KeepsSegments {ε : Type} (expand : String → List (String × String) → Except ε String) :
    Prop where
  fills : ∀ {template params path}, expand template params = .ok path →
    List.Forall₂ Fills (segments template) (segments path)

/-! ## Below a root -/

/-- The path is below this root and nothing in it leads out again. -/
structure Under (root path : String) : Prop where
  begins : (root ++ "/").toList <+: path.toList
  stays : ∀ s ∈ (segments path).drop (segments root).length, staysInSegment s = true

/-- A template below this root; its other segments are placeholders or stay where they are. -/
structure TemplateUnder (root template : String) : Prop where
  literal : ∀ s ∈ segments root, isPlaceholder s = false
  begins : segments root <+: segments template
  below : (segments template).drop (segments root).length ≠ []
  stays : ∀ s ∈ (segments template).drop (segments root).length,
    isPlaceholder s = true ∨ staysInSegment s = true

instance (root template : String) : Decidable (TemplateUnder root template) :=
  decidable_of_iff
    ((∀ s ∈ segments root, isPlaceholder s = false) ∧ segments root <+: segments template ∧
      (segments template).drop (segments root).length ≠ [] ∧
      ∀ s ∈ (segments template).drop (segments root).length,
        isPlaceholder s = true ∨ staysInSegment s = true)
    ⟨fun ⟨h₁, h₂, h₃, h₄⟩ => ⟨h₁, h₂, h₃, h₄⟩, fun ⟨h₁, h₂, h₃, h₄⟩ => ⟨h₁, h₂, h₃, h₄⟩⟩

theorem segments_ne_nil (path : String) : segments path ≠ [] := List.splitOn_ne_nil _ _

theorem intercalate_segments (path : String) : ['/'].intercalate (segments path) = path.toList :=
  List.intercalate_splitOn _

theorem intercalate_append {α : Type} (sep : List α) {xs ys : List (List α)} (hxs : xs ≠ [])
    (hys : ys ≠ []) :
    sep.intercalate (xs ++ ys) = sep.intercalate xs ++ sep ++ sep.intercalate ys := by
  induction xs with
  | nil => exact absurd rfl hxs
  | cons x xs ih =>
      by_cases hnil : xs = []
      · subst hnil
        rw [List.singleton_append, List.intercalate_cons_of_ne_nil hys, List.intercalate_singleton]
      · have happend : xs ++ ys ≠ [] := fun h => hnil (List.append_eq_nil_iff.1 h).1
        rw [List.cons_append, List.intercalate_cons_of_ne_nil happend, ih hnil,
          List.intercalate_cons_of_ne_nil hnil]
        simp only [List.append_assoc]

/-- The segments of a path begin with those of the root: so does the path itself. -/
theorem prefix_of_segments {root path : String} {rest : List (List Char)}
    (h : segments path = segments root ++ rest) (hrest : rest ≠ []) :
    (root ++ "/").toList <+: path.toList := by
  have hpath : path.toList = root.toList ++ ['/'] ++ ['/'].intercalate rest := by
    rw [← intercalate_segments path, h, intercalate_append _ (segments_ne_nil root) hrest,
      intercalate_segments]
  rw [hpath, String.toList_append]
  exact List.prefix_append _ _

theorem TemplateUnder.beginsWith {root template : String} (h : TemplateUnder root template) :
    (root ++ "/").toList <+: template.toList := by
  obtain ⟨rest, hrest⟩ := h.begins
  have hbelow := h.below
  rw [← hrest, List.drop_left] at hbelow
  exact prefix_of_segments hrest.symm hbelow

theorem segments_append (path tail : String) :
    segments (path ++ "/" ++ tail) = segments path ++ segments tail := by
  have hlist : (path ++ "/" ++ tail).toList = path.toList ++ '/' :: tail.toList := by
    simp only [String.toList_append]
    exact List.append_assoc _ ['/'] _
  rw [segments, hlist]
  exact List.splitOn_append_cons_self _ _

/-- A template stays below its root when it is continued. -/
theorem TemplateUnder.append {root template : String} (h : TemplateUnder root template)
    {tail : String}
    (htail : ∀ s ∈ segments tail, isPlaceholder s = true ∨ staysInSegment s = true) :
    TemplateUnder root (template ++ "/" ++ tail) := by
  obtain ⟨rest, hrest⟩ := h.begins
  have hstays := h.stays
  rw [← hrest, List.drop_left] at hstays
  have hsegments : segments (template ++ "/" ++ tail) =
      segments root ++ (rest ++ segments tail) := by
    rw [segments_append, ← hrest, List.append_assoc]
  refine ⟨h.literal, ⟨_, hsegments.symm⟩, ?_, ?_⟩
  · rw [hsegments, List.drop_left]
    exact fun hnil => segments_ne_nil tail (List.append_eq_nil_iff.1 hnil).2
  · rw [hsegments, List.drop_left]
    intro s hs
    exact (List.mem_append.1 hs).elim (hstays s) (htail s)

/-- Segments that are no placeholders are kept. -/
theorem eq_of_fills {ss ss' : List (List Char)} (h : List.Forall₂ Fills ss ss')
    (hliteral : ∀ s ∈ ss, isPlaceholder s = false) : ss' = ss := by
  induction h with
  | nil => rfl
  | @cons s s' ss ss' head tail ih =>
      have hs := hliteral s List.mem_cons_self
      have heq : s' = s := by
        unfold Fills at head
        rwa [hs, if_neg Bool.false_ne_true] at head
      rw [heq, ih fun s hmem => hliteral s (List.mem_cons_of_mem _ hmem)]

/-- Every segment of the path fills one of the template. -/
theorem exists_of_fills {ss ss' : List (List Char)} (h : List.Forall₂ Fills ss ss')
    {s' : List Char} (hs' : s' ∈ ss') : ∃ s ∈ ss, Fills s s' := by
  induction h with
  | nil => cases hs'
  | @cons s first ss rest head tail ih =>
      rcases List.mem_cons.1 hs' with rfl | hs'
      · exact ⟨s, List.mem_cons_self, head⟩
      · obtain ⟨s₀, hs₀, hfills⟩ := ih hs'
        exact ⟨s₀, List.mem_cons_of_mem _ hs₀, hfills⟩

/-- Segments that are placeholders or stay where they are give segments that do. -/
theorem stays_of_fills {ss ss' : List (List Char)} (h : List.Forall₂ Fills ss ss')
    (hstays : ∀ s ∈ ss, isPlaceholder s = true ∨ staysInSegment s = true) :
    ∀ s ∈ ss', staysInSegment s = true := by
  intro s' hs'
  obtain ⟨s, hs, hfills⟩ := exists_of_fills h hs'
  unfold Fills at hfills
  split_ifs at hfills with hplaceholder
  · exact hfills
  · rw [hfills]
    exact (hstays s hs).resolve_left hplaceholder

/-- **A path expanded from a template below a root stays below it.** -/
theorem TemplateUnder.under_of_fills {root template path : String} (h : TemplateUnder root template)
    (hfills : List.Forall₂ Fills (segments template) (segments path)) : Under root path := by
  obtain ⟨rest, hrest⟩ := h.begins
  have hbelow := h.below
  have hstays := h.stays
  rw [← hrest, List.drop_left] at hbelow hstays
  rw [← hrest] at hfills
  -- The path splits where its template does.
  obtain ⟨ss, ss', happ, hroot, htail⟩ : ∃ ss ss', segments path = ss ++ ss' ∧
      List.Forall₂ Fills (segments root) ss ∧ List.Forall₂ Fills rest ss' := by
    have htake := List.forall₂_take_append _ _ _ hfills.flip
    have hdrop := List.forall₂_drop_append _ _ _ hfills.flip
    exact ⟨_, _, (List.take_append_drop _ _).symm, htake.flip, hdrop.flip⟩
  rw [eq_of_fills hroot h.literal] at happ
  refine ⟨prefix_of_segments happ fun hnil => hbelow ?_, ?_⟩
  · subst hnil
    exact List.forall₂_nil_right_iff.1 htail
  · rw [happ, List.drop_left]
    exact stays_of_fills htail hstays

/-! ## An expansion -/

/-- The parameter a placeholder stands for. -/
def placeholderName (s : List Char) : String := String.ofList (s.drop 1).dropLast

/-- Fill one segment; a value that would leave it is refused. -/
def fillSegment (params : List (String × String)) (s : List Char) : Except String (List Char) :=
  if isPlaceholder s then
    match params.lookup (placeholderName s) with
    | none => .error s!"no value for {placeholderName s}"
    | some value =>
        if staysInSegment value.toList then .ok value.toList
        else .error s!"the value of {placeholderName s} leaves its segment"
  else .ok s

/-- Expand a template. -/
def fillTemplate (template : String) (params : List (String × String)) : Except String String :=
  ((segments template).mapM (fillSegment params)).map fun filled =>
    String.ofList (['/'].intercalate filled)

theorem fills_of_fillSegment {params : List (String × String)} {s s' : List Char}
    (h : fillSegment params s = .ok s') : Fills s s' := by
  unfold fillSegment at h
  unfold Fills
  split_ifs at h ⊢ with hplaceholder
  · cases hvalue : params.lookup (placeholderName s) with
    | none =>
        rw [hvalue] at h
        cases h
    | some value =>
        rw [hvalue] at h
        dsimp only at h
        split_ifs at h with hstays
        cases h
        exact hstays
  · cases h
    rfl

/-- What a list is split at is in none of its parts. -/
theorem not_mem_of_mem_splitOn {α : Type} [DecidableEq α] {a : α} {xs : List α} :
    ∀ s ∈ xs.splitOn a, a ∉ s := by
  induction xs with
  | nil =>
      intro s hs
      obtain rfl := List.mem_singleton.1 (List.splitOn_nil a ▸ hs)
      exact List.not_mem_nil
  | cons x xs ih =>
      intro s hs
      rw [List.splitOn_cons_eq_if_modifyHead] at hs
      split_ifs at hs with hx
      · rcases List.mem_cons.1 hs with rfl | hs
        · exact List.not_mem_nil
        · exact ih s hs
      · obtain ⟨first, rest, hsplit⟩ := List.exists_cons_of_ne_nil (List.splitOn_ne_nil a xs)
        rw [hsplit] at hs ih
        rcases List.mem_cons.1 hs with rfl | hs
        · have hfirst := ih first List.mem_cons_self
          have hne : a ≠ x := fun heq => hx (beq_iff_eq.2 heq.symm)
          exact fun hmem => (List.mem_cons.1 hmem).elim hne hfirst
        · exact ih s (List.mem_cons_of_mem _ hs)

theorem slash_not_mem_of_stays {s : List Char} (h : staysInSegment s = true) : '/' ∉ s := by
  intro hmem
  have hall := List.all_eq_true.1 (Bool.and_eq_true_iff.1 h).2 _ hmem
  exact absurd hall (by decide)

theorem slash_not_mem_of_fills {ss ss' : List (List Char)} (h : List.Forall₂ Fills ss ss')
    (hss : ∀ s ∈ ss, '/' ∉ s) : ∀ s ∈ ss', '/' ∉ s := by
  intro s' hs'
  obtain ⟨s, hs, hfills⟩ := exists_of_fills h hs'
  unfold Fills at hfills
  split_ifs at hfills
  · exact slash_not_mem_of_stays hfills
  · exact hfills ▸ hss s hs

theorem keepsSegments_fillTemplate : KeepsSegments fillTemplate := by
  constructor
  intro template params path h
  unfold fillTemplate at h
  cases hfilled : (segments template).mapM (fillSegment params) with
  | error e =>
      rw [hfilled] at h
      cases h
  | ok filled =>
      rw [hfilled] at h
      cases h
      have hfills : List.Forall₂ Fills (segments template) filled :=
        (Collections.mapM_eq_ok.1 hfilled).imp fun _ _ hs => fills_of_fillSegment hs
      have hslash := slash_not_mem_of_fills hfills not_mem_of_mem_splitOn
      have hne : filled ≠ [] := by
        rintro rfl
        exact segments_ne_nil template (List.forall₂_nil_right_iff.1 hfills)
      have hsegments : segments (String.ofList (['/'].intercalate filled)) = filled := by
        rw [segments, String.toList_ofList, List.splitOn_intercalate '/' hslash hne]
      rwa [hsegments]

example : fillTemplate "/sites/{site}/devices" [("site", "a-1")] = .ok "/sites/a-1/devices" := by
  decide

end Paths
