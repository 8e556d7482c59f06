import UnifiMcp.Client.Obedient
import UnifiMcp.Client.WriteBodies
import UnifiMcp.Changeset.Checks

/-!
# What the mutations of a plan leave behind

`WriteEffects` says what a plan that was written in full does to the resources of a site, one
mutation after another.  Verification looks at the result only, so each mutation is judged by
what all of them left.  Two mutations are `Compatible` if one and the same state of a resource
can be what verification accepts for both; `WriteEffects.bears_out` says that pairwise
compatibility is enough for all of a plan, and `compatible_of_accepts` that it is needed.
-/

namespace UnifiMcp

open Collections

/-! ## What a plan does to the resources -/

/-- What one mutation that succeeded does to the resources of the site. -/
def WriteEffect (held : Resources) : StagedMutation → Option String → Resources → Prop
  | .create kind body, some id, held' => held (kind, id) = none ∧
      ∃ v, MadeFrom body id v ∧ held' = Function.update held (kind, id) (some v)
  | .update kind id body, _, held' => ∃ current, held (kind, id) = some current ∧
      held' = Function.update held (kind, id) (some (mergeStaged current body))
  | .delete kind id, _, held' => held' = Function.update held (kind, id) none
  | .create _ _, none, _ | .restore _, _, _ => False

/-- What the mutations of a plan do one after another. -/
inductive WriteEffects : Resources → List (StagedMutation × Option String) → Resources → Prop where
  | nil {held : Resources} : WriteEffects held [] held
  | cons {held held₁ held' : Resources} {m : StagedMutation} {createdId : Option String}
      {done : List (StagedMutation × Option String)} (head : WriteEffect held m createdId held₁)
      (tail : WriteEffects held₁ done held') : WriteEffects held ((m, createdId) :: done) held'

section Effects

variable {held held' : Resources} {kind id : String}

/-- What one mutation can do to one resource. -/
theorem WriteEffect.at {m : StagedMutation} {createdId : Option String}
    (h : WriteEffect held m createdId held') (kind id : String) :
    held' (kind, id) = held (kind, id) ∨
      (∃ body, m = .create kind body ∧ createdId = some id ∧ held (kind, id) = none ∧
        (held' (kind, id)).isSome) ∨
      (∃ body current, m = .update kind id body ∧ held (kind, id) = some current ∧
        held' (kind, id) = some (mergeStaged current body)) ∨
      m = .delete kind id ∧ held' (kind, id) = none := by
  match m, createdId, h with
  | .create kind' body, some id', h =>
      obtain ⟨hfresh, v, -, rfl⟩ := h
      by_cases hkey : (kind, id) = (kind', id')
      · obtain ⟨rfl, rfl⟩ := Prod.mk.inj hkey
        exact .inr (.inl ⟨body, rfl, rfl, hfresh, by simp⟩)
      · exact .inl (Function.update_of_ne hkey _ _)
  | .update kind' id' body, _, h =>
      obtain ⟨current, hcurrent, rfl⟩ := h
      by_cases hkey : (kind, id) = (kind', id')
      · obtain ⟨rfl, rfl⟩ := Prod.mk.inj hkey
        exact .inr (.inr (.inl ⟨body, current, rfl, hcurrent, by simp⟩))
      · exact .inl (Function.update_of_ne hkey _ _)
  | .delete kind' id', _, h =>
      obtain rfl : held' = _ := h
      by_cases hkey : (kind, id) = (kind', id')
      · obtain ⟨rfl, rfl⟩ := Prod.mk.inj hkey
        exact .inr (.inr (.inr ⟨rfl, by simp⟩))
      · exact .inl (Function.update_of_ne hkey _ _)

theorem writeEffects_append {done done' : List (StagedMutation × Option String)} :
    WriteEffects held (done ++ done') held' ↔
      ∃ held₁, WriteEffects held done held₁ ∧ WriteEffects held₁ done' held' := by
  induction done generalizing held with
  | nil =>
      constructor
      · intro h
        exact ⟨held, .nil, h⟩
      · rintro ⟨held₁, h₁, h₂⟩
        cases h₁
        exact h₂
  | cons d done ih =>
      constructor
      · intro h
        cases h with
        | cons head tail =>
            obtain ⟨held₁, h₁, h₂⟩ := ih.1 tail
            exact ⟨held₁, .cons head h₁, h₂⟩
      · rintro ⟨held₁, h₁, h₂⟩
        cases h₁ with
        | cons head tail => exact .cons head (ih.2 ⟨held₁, tail, h₂⟩)

variable {done : List (StagedMutation × Option String)}

/-- What is gone stays gone unless its id is given to a create. -/
theorem WriteEffects.absent (h : WriteEffects held done held')
    (hcreate : ∀ body, (.create kind body, some id) ∉ done) (hnone : held (kind, id) = none) :
    held' (kind, id) = none := by
  induction h with
  | nil => exact hnone
  | @cons held held₁ held' m createdId done head _ ih =>
      refine ih (fun body hmem => hcreate body (List.mem_cons_of_mem _ hmem)) ?_
      rcases head.at kind id with hsame | ⟨body, rfl, rfl, -⟩ | ⟨body, current, -, hcurrent, -⟩ |
        ⟨-, hgone⟩
      · exact hsame.trans hnone
      · exact absurd List.mem_cons_self (hcreate body)
      · cases hnone.symm.trans hcurrent
      · exact hgone

/-- What is there stays there unless it is deleted, and keeps what all its updates keep. -/
theorem WriteEffects.keeps {P : Json → Prop} (h : WriteEffects held done held')
    (hdelete : ∀ d ∈ done, d.1 ≠ .delete kind id)
    (hupdate : ∀ d ∈ done, ∀ body, d.1 = .update kind id body → ∀ v, P v → P (mergeStaged v body))
    (hheld : ∃ v, held (kind, id) = some v ∧ P v) : ∃ v, held' (kind, id) = some v ∧ P v := by
  induction h with
  | nil => exact hheld
  | @cons held held₁ held' m createdId done head _ ih =>
      obtain ⟨hdelete₁, hdelete⟩ := List.forall_mem_cons.1 hdelete
      obtain ⟨hupdate₁, hupdate⟩ := List.forall_mem_cons.1 hupdate
      obtain ⟨v, hv, hP⟩ := hheld
      refine ih hdelete hupdate ?_
      rcases head.at kind id with hsame | ⟨body, -, -, hfresh, -⟩ |
        ⟨body, current, rfl, hcurrent, hmerged⟩ | ⟨rfl, -⟩
      · exact ⟨v, hsame.trans hv, hP⟩
      · cases hfresh.symm.trans hv
      · obtain rfl : v = current := Option.some.inj (hv.symm.trans hcurrent)
        exact ⟨_, hmerged, hupdate₁ body rfl v hP⟩
      · exact absurd rfl hdelete₁

end Effects

/-! ## Mutations that can all be borne out -/

/-- The mutation deletes a resource. -/
def StagedMutation.isDelete : StagedMutation → Bool
  | .delete _ _ => true
  | .create _ _ | .update _ _ _ | .restore _ => false

/-- The name an update stages. -/
def StagedMutation.stagedName : StagedMutation → Option Json
  | .update _ _ body => body.get? "name"
  | .create _ _ | .delete _ _ | .restore _ => none

/-- One state of a resource can bear both mutations out: if they address the same one, both
delete it or neither does, and they do not stage two names. -/
def Compatible (m m' : StagedMutation) : Prop :=
  ∀ target, m.target = some target → m'.target = some target →
    m.isDelete = m'.isDelete ∧
      ∀ name name', m.stagedName = some name → m'.stagedName = some name' → name = name'

/-- What verification accepts for a mutation that addresses a resource. -/
theorem accepts_iff {m : StagedMutation} {target : String × String}
    (h : m.target = some target) {v : Option Json} :
    Accepts m v ↔ if m.isDelete then v = none
      else ∃ live, v = some live ∧ ∀ name, m.stagedName = some name → live.get? "name" = some name
    := by
  cases m with
  | create kind body | restore backupId => cases h
  | update kind id body =>
      cases v <;> simp [Accepts, StagedMutation.isDelete, StagedMutation.stagedName]
  | delete kind id => cases v <;> simp [Accepts, StagedMutation.isDelete]

/-- Mutations that one state bears out are compatible. -/
theorem compatible_of_accepts {m m' : StagedMutation} {held : Resources}
    (h : ∀ target, m.target = some target → Accepts m (held target))
    (h' : ∀ target, m'.target = some target → Accepts m' (held target)) : Compatible m m' := by
  intro target htarget htarget'
  have hlive := (accepts_iff htarget).1 (h target htarget)
  have hlive' := (accepts_iff htarget').1 (h' target htarget')
  split_ifs at hlive hlive' with hdelete hdelete' hdelete'
  · refine ⟨hdelete.trans hdelete'.symm, fun name name' hname => ?_⟩
    cases m with
    | delete kind id => cases hname
    | create kind body | update kind id body | restore backupId => cases hdelete
  · obtain ⟨live, hsome, -⟩ := hlive'
    cases hlive.symm.trans hsome
  · obtain ⟨live, hsome, -⟩ := hlive
    cases hlive'.symm.trans hsome
  · obtain ⟨live, hsome, hnames⟩ := hlive
    obtain ⟨live', hsome', hnames'⟩ := hlive'
    obtain rfl : live = live' := Option.some.inj (hsome.symm.trans hsome')
    refine ⟨by simp_all, fun name name' hname hname' => ?_⟩
    exact Option.some.inj ((hnames name hname).symm.trans (hnames' name' hname'))

/-- The name that is left after staged fields were put over an object. -/
theorem get?_name_mergeStaged {fields : List (String × Json)} (h : Ascending fields)
    {current : Json} (hcurrent : current.isObject = true) :
    (mergeStaged current (.obj fields)).isObject = true ∧
      (mergeStaged current (.obj fields)).get? "name" =
        ((Json.obj fields).get? "name").or (current.get? "name") := by
  obtain ⟨currentFields, rfl⟩ := Json.isObject_iff.1 hcurrent
  refine ⟨rfl, ?_⟩
  show findEntry "name" (mergeFields currentFields fields) =
    (findEntry "name" fields).or (findEntry "name" currentFields)
  cases hname : findEntry "name" fields with
  | none => exact findEntry_mergeFields_of_not_mem (findEntry_eq_none.1 hname)
  | some name =>
      exact findEntry_mergeFields_of_mem h (h.mem_iff.2 hname) (by decide) (by decide)

/-- The bodies of updates are objects with their fields in order. -/
def ObjectBodies (mutations : List StagedMutation) : Prop :=
  ∀ kind id body, .update kind id body ∈ mutations → ∃ fields, body = .obj fields ∧ Ascending fields

section BearsOut

variable {held held' : Resources} {done : List (StagedMutation × Option String)}
  {kind id : String} {createdId : Option String}

/-- What one mutation of a plan found and left. -/
theorem WriteEffects.split (h : WriteEffects held done held')
    {d : StagedMutation × Option String} (hd : d ∈ done) :
    ∃ before after held₁ held₂, before ⊆ done ∧ after ⊆ done ∧ WriteEffects held before held₁ ∧
      WriteEffect held₁ d.1 d.2 held₂ ∧ WriteEffects held₂ after held' := by
  obtain ⟨before, after, rfl⟩ := List.append_of_mem hd
  obtain ⟨held₁, hbefore, hrest⟩ := writeEffects_append.1 h
  cases hrest with
  | cons head tail =>
      refine ⟨before, after, held₁, _, List.subset_append_left _ _, fun e he => ?_, hbefore, head,
        tail⟩
      exact List.mem_append_right _ (List.mem_cons_of_mem _ he)

/-- A deleted resource is gone, unless its id was given to a create. -/
theorem WriteEffects.deleted (h : WriteEffects held done held')
    (hd : (.delete kind id, createdId) ∈ done)
    (hreuse : ∀ body, (.create kind body, some id) ∉ done) : held' (kind, id) = none := by
  obtain ⟨before, after, held₁, held₂, -, hafter, -, head, tail⟩ := h.split hd
  refine tail.absent (fun body hmem => hreuse body (hafter hmem)) ?_
  rw [show held₂ = Function.update held₁ (kind, id) none from head, Function.update_self]

/-- A created resource is there, unless its id is deleted. -/
theorem WriteEffects.created (h : WriteEffects held done held') {body : Json}
    (hd : (.create kind body, some id) ∈ done) (hdelete : ∀ d ∈ done, d.1 ≠ .delete kind id) :
    (held' (kind, id)).isSome := by
  obtain ⟨before, after, held₁, held₂, -, hafter, -, head, tail⟩ := h.split hd
  obtain ⟨-, v, -, hheld⟩ := head
  obtain ⟨live, hlive, -⟩ := tail.keeps (P := fun _ => True)
    (fun d hmem => hdelete d (hafter hmem)) (fun _ _ _ _ _ _ => trivial)
    ⟨v, by rw [hheld, Function.update_self], trivial⟩
  rw [hlive]
  rfl

/-- An updated resource bears the name that was staged, unless it is deleted or another update
stages another one. -/
theorem WriteEffects.updated (h : WriteEffects held done held') {body : Json}
    (hd : (.update kind id body, createdId) ∈ done) (hbodies : ObjectBodies (done.map Prod.fst))
    (hobject : ∃ v, held (kind, id) = some v ∧ v.isObject = true)
    (hdelete : ∀ d ∈ done, d.1 ≠ .delete kind id)
    (hnames : ∀ d ∈ done, ∀ body', d.1 = .update kind id body' → ∀ name name',
      body.get? "name" = some name → body'.get? "name" = some name' → name = name') :
    Accepts (.update kind id body) (held' (kind, id)) := by
  obtain ⟨before, after, held₁, held₂, hbefore, hafter, hfirst, head, tail⟩ := h.split hd
  have hfields : ∀ d ∈ done, ∀ body', d.1 = .update kind id body' →
      ∃ fields, body' = .obj fields ∧ Ascending fields :=
    fun d hmem body' heq => hbodies kind id body' (List.mem_map.2 ⟨d, hmem, heq⟩)
  -- Up to this update there was an object,
  obtain ⟨v, hv, hobject⟩ := hfirst.keeps (P := fun v => v.isObject = true)
    (fun d hmem => hdelete d (hbefore hmem))
    (fun d hmem body' heq v hobject => by
      obtain ⟨fields, rfl, hascending⟩ := hfields d (hbefore hmem) body' heq
      exact (get?_name_mergeStaged hascending hobject).1) hobject
  -- which this update named,
  obtain ⟨current, hcurrent, hheld⟩ := head
  obtain rfl : v = current := Option.some.inj (hv.symm.trans hcurrent)
  obtain ⟨fields, rfl, hascending⟩ := hfields _ hd body rfl
  obtain ⟨hobject₁, hname₁⟩ := get?_name_mergeStaged hascending hobject
  have hhere : ∀ name, (Json.obj fields).get? "name" = some name →
      (mergeStaged v (.obj fields)).get? "name" = some name := by
    intro name hname
    rw [hname₁, hname, Option.some_or]
  -- and the later ones did not rename it.
  obtain ⟨live, hlive, -, hnamed⟩ := tail.keeps
    (P := fun v => v.isObject = true ∧
      ∀ name, (Json.obj fields).get? "name" = some name → v.get? "name" = some name)
    (fun d hmem => hdelete d (hafter hmem))
    (fun d hmem body' heq v ⟨hobject, hnamed⟩ => by
      have hagree := hnames d (hafter hmem) body' heq
      obtain ⟨fields', rfl, hascending'⟩ := hfields d (hafter hmem) body' heq
      obtain ⟨hobject', hname'⟩ := get?_name_mergeStaged hascending' hobject
      refine ⟨hobject', fun name hname => ?_⟩
      rw [hname']
      cases hstaged : (Json.obj fields').get? "name" with
      | none => exact hnamed name hname
      | some name' => rw [hagree name name' hname hstaged, Option.some_or])
    ⟨_, by rw [hheld, Function.update_self], hobject₁, hhere⟩
  rw [hlive]
  exact hnamed

/-- **Compatible mutations are borne out by what they leave behind**, unless a create was given
an id that the plan deletes. -/
theorem WriteEffects.bears_out (h : WriteEffects held done held')
    (hbodies : ObjectBodies (done.map Prod.fst))
    (hobjects : ∀ d ∈ done, ∀ target, d.1.target = some target →
      ∃ v, held target = some v ∧ v.isObject = true)
    (hcompatible : ∀ d ∈ done, ∀ d' ∈ done, Compatible d.1 d'.1)
    (hreuse : ∀ kind body id, (.create kind body, some id) ∈ done →
      ∀ d ∈ done, d.1 ≠ .delete kind id) :
    (∀ d ∈ done, ∀ target, d.1.target = some target → Accepts d.1 (held' target)) ∧
      ∀ kind body id, (.create kind body, some id) ∈ done → (held' (kind, id)).isSome := by
  refine ⟨?_, fun kind body id hd => h.created hd (hreuse kind body id hd)⟩
  rintro ⟨m, createdId⟩ hd target htarget
  cases m with
  | create kind body | restore backupId => cases htarget
  | delete kind id =>
      cases htarget
      rw [h.deleted hd fun body hmem => hreuse kind body id hmem _ hd rfl]
      trivial
  | update kind id body =>
      cases htarget
      have hsame : ∀ d ∈ done, d.1.target = some (kind, id) → _ := fun d hmem htarget =>
        hcompatible _ hd d hmem (kind, id) rfl htarget
      refine h.updated hd hbodies (hobjects _ hd _ rfl) ?_ ?_
      · intro d hmem heq
        have hboth := (hsame d hmem (by rw [heq]; rfl)).1
        rw [heq] at hboth
        cases hboth
      · intro d hmem body' heq name name' hname hname'
        exact (hsame d hmem (by rw [heq]; rfl)).2 name name' hname (by rw [heq]; exact hname')

end BearsOut

end UnifiMcp
