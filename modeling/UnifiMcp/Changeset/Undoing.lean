import UnifiMcp.Changeset.Outcome

/-!
# What a rollback undoes

When a write fails, the writes before it are undone from the last to the first.  An `Undo`
is one of them with the answer its undo was given; `runs_rollbackLoop` says that a rollback
is a list of undos, one for each write, and that its report is the list of those that did
not succeed.  `rollback_undoes_writes` is the statement about the whole apply.
-/

namespace UnifiMcp

open Interaction

/-- A write that succeeded, and what its undo was answered; a restore has no undo. -/
structure Undo where
  mutation : StagedMutation
  /-- The position the mutation was applied at. -/
  index : Nat
  /-- What `apply_mutation` answered there. -/
  createdId : Option String
  answer : Option (Except UnifiError Unit)

/-- Whether a mutation restores a backup. -/
def StagedMutation.isRestore : StagedMutation → Bool
  | .restore _ => true
  | .create _ _ | .update _ _ _ | .delete _ _ => false

namespace Undo

/-- The write that is undone, at its position. -/
def write (u : Undo) : (StagedMutation × Option String) × Nat :=
  ((u.mutation, u.createdId), u.index)

/-- The call an undo makes: a restore makes none. -/
def event (preimage : Preimage) (u : Undo) : Option (Event ControllerSig) :=
  u.answer.map fun answer =>
    ⟨.rollbackMutation u.index u.mutation (priorValueOf preimage u.mutation) u.createdId, answer⟩

/-- What is reported of an undo that did not succeed. -/
def failure (u : Undo) : Option String :=
  match u.answer with
  | none => some (s!"cannot rollback {u.mutation.preview} " ++
      s!"(mutation {u.index}): restores cannot be undone")
  | some (.error e) =>
      some s!"rollback failed for {u.mutation.preview} (mutation {u.index}): {e.toString}"
  | some (.ok ()) => none

/-- Whether the call of an undo failed. -/
def callFailed (u : Undo) : Bool :=
  match u.answer with
  | some (.error _) => true
  | some (.ok ()) | none => false

/-- An undo succeeded. -/
def Succeeded (u : Undo) : Prop := u.answer = some (.ok ())

theorem failure_eq_none (u : Undo) : u.failure = none ↔ u.Succeeded := by
  unfold failure Succeeded
  rcases u.answer with _ | (e | _) <;> simp

end Undo

/-- A list of undos of writes, the last write first: the calls they make and what they report. -/
structure UndoneBy (preimage : Preimage) (writes : List ((StagedMutation × Option String) × Nat))
    (undos : List Undo) (t : List (Event ControllerSig)) (failures : List String) : Prop where
  writes_eq : undos.map Undo.write = writes
  skipped : ∀ u ∈ undos, u.answer = none ↔ u.mutation.isRestore = true
  calls : t = undos.filterMap (Undo.event preimage)
  failures_eq : failures = undos.filterMap Undo.failure

section UndoneBy

variable {preimage : Preimage} {writes : List ((StagedMutation × Option String) × Nat)}
  {undos : List Undo} {t : List (Event ControllerSig)} {failures : List String}

theorem UndoneBy.nil : UndoneBy preimage [] [] [] [] :=
  ⟨rfl, fun _ hu => absurd hu List.not_mem_nil, rfl, rfl⟩

theorem UndoneBy.cons (h : UndoneBy preimage writes undos t failures) (u : Undo)
    (hu : u.answer = none ↔ u.mutation.isRestore = true) :
    UndoneBy preimage (u.write :: writes) (u :: undos) ((u.event preimage).toList ++ t)
      (u.failure.toList ++ failures) := by
  refine ⟨by rw [List.map_cons, h.writes_eq], ?_, ?_, ?_⟩
  · intro u' hu'
    rcases List.mem_cons.1 hu' with rfl | hu'
    · exact hu
    · exact h.skipped u' hu'
  · rw [h.calls, List.filterMap_cons]
    cases u.event preimage <;> rfl
  · rw [h.failures_eq, List.filterMap_cons]
    cases u.failure <;> rfl

/-- One entry is reported for each call that failed, and one for each restore. -/
theorem UndoneBy.length_failures (h : UndoneBy preimage writes undos t failures) :
    failures.length =
      undos.countP Undo.callFailed + undos.countP fun u => u.mutation.isRestore := by
  obtain ⟨-, hskipped, -, rfl⟩ := h
  clear t writes
  induction undos with
  | nil => rfl
  | cons u undos ih =>
      have hrest := ih fun u' hu' => hskipped u' (List.mem_cons_of_mem _ hu')
      have hu := hskipped u List.mem_cons_self
      rw [List.filterMap_cons, List.countP_cons, List.countP_cons]
      unfold Undo.failure Undo.callFailed at *
      rcases hanswer : u.answer with _ | (e | _)
      · have hrestore : u.mutation.isRestore = true := hu.1 hanswer
        simp only [hrestore, List.length_cons, if_true]
        simp only [Bool.false_eq_true, if_false]
        omega
      · have hother : u.mutation.isRestore = false := by
          rw [← Bool.not_eq_true, ← hu, hanswer]
          simp
        simp only [hother, List.length_cons, if_true, Bool.false_eq_true, if_false]
        omega
      · have hother : u.mutation.isRestore = false := by
          rw [← Bool.not_eq_true, ← hu, hanswer]
          simp
        simp only [hother, Bool.false_eq_true, if_false]
        omega

/-- Nothing is reported exactly when every undo succeeded. -/
theorem UndoneBy.failures_eq_nil (h : UndoneBy preimage writes undos t failures) :
    failures = [] ↔ ∀ u ∈ undos, u.Succeeded := by
  rw [h.failures_eq, List.filterMap_eq_nil_iff]
  simp only [Undo.failure_eq_none]

end UndoneBy

/-- **A rollback undoes every write it is given**, whatever each undo is answered. -/
theorem runs_rollbackLoop {preimage : Preimage} {createdIds : CreatedIds}
    {writes : List ((StagedMutation × Option String) × Nat)} {failures out : List String}
    {t : List (Event ControllerSig)}
    (hids : ∀ w ∈ writes, createdIds.lookup w.2 = w.1.2)
    (h : (rollbackLoop preimage createdIds (writes.map fun w => (w.1.1, w.2)) failures).Runs
      t out) :
    ∃ undos reported, UndoneBy preimage writes undos t reported ∧ out = failures ++ reported := by
  induction writes generalizing failures t with
  | nil =>
      obtain ⟨rfl, rfl⟩ := h
      exact ⟨[], [], .nil, (List.append_nil _).symm⟩
  | cons w writes ih =>
      obtain ⟨⟨mutation, createdId⟩, index⟩ := w
      have hid : createdIds.lookup index = createdId := hids _ List.mem_cons_self
      have hrest : ∀ w ∈ writes, createdIds.lookup w.2 = w.1.2 := fun w hw =>
        hids w (List.mem_cons_of_mem _ hw)
      rw [List.map_cons] at h
      cases mutation with
      | restore backupId =>
          obtain ⟨undos, reported, hundone, rfl⟩ := ih hrest h
          refine ⟨_, _, hundone.cons ⟨.restore backupId, index, createdId, none⟩
            (by simp [StagedMutation.isRestore]), ?_⟩
          rw [List.append_assoc]
          rfl
      | create kind body | update kind id body | delete kind id =>
          obtain ⟨answer, tail, rfl, h⟩ := h
          rw [hid]
          cases answer with
          | error e =>
              obtain ⟨undos, reported, hundone, rfl⟩ := ih hrest h
              refine ⟨_, _, hundone.cons ⟨_, index, createdId, some (.error e)⟩
                (by simp [StagedMutation.isRestore]), ?_⟩
              rw [List.append_assoc]
              rfl
          | ok _ =>
              obtain ⟨undos, reported, hundone, rfl⟩ := ih hrest h
              exact ⟨_, _, hundone.cons ⟨_, index, createdId, some (.ok ())⟩
                (by simp [StagedMutation.isRestore]), rfl⟩

/-- The ids a rollback is given are those the writes were answered with. -/
theorem CreatedIds.lookup_recordAll_eq (createdIds : CreatedIds) (index : Nat)
    (done : List (StagedMutation × Option String))
    (hfresh : ∀ j, createdIds.lookup (index + j) = none)
    {w : (StagedMutation × Option String) × Nat} (hw : w ∈ done.zipIdx index) :
    (createdIds.recordAll index done).lookup w.2 = w.1.2 := by
  induction done generalizing createdIds index with
  | nil => cases hw
  | cons d done ih =>
      obtain ⟨m, createdId⟩ := d
      rw [List.zipIdx_cons, List.mem_cons] at hw
      rcases hw with rfl | hw
      · rw [recordAll, lookup_recordAll_of_lt _ _ _ (Nat.lt_succ_self _)]
        cases createdId with
        | none => exact hfresh 0
        | some id => exact List.lookup_cons_self
      · refine ih _ _ (fun j => ?_) hw
        have hne : (index + 1 + j == index) = false := beq_false_of_ne (by omega)
        have hold : createdIds.lookup (index + 1 + j) = none := by
          rw [Nat.add_assoc]
          exact hfresh (1 + j)
        cases createdId with
        | none => exact hold
        | some id => rw [record, List.lookup_cons, hne, hold]

/-- **What a failed apply undoes.**  The apply stops at the write that failed; every write
before it is undone, the last one first, with the position it was applied at, the value the
pre-image holds for it and the id it was answered with.  The report has one entry for each
undo that failed and one for each restore, and the state is `Partial` exactly when every undo
succeeded. -/
theorem rollback_undoes_writes {preimage : Preimage} {mutations : List StagedMutation}
    {t : List (Event ControllerSig)} {o : Outcome}
    (h : (applySequentially preimage mutations).Runs t o) (hfailed : SomeWriteFailed t) :
    ∃ done m rest e undos rollback,
      mutations = done.map Prod.fst ++ m :: rest ∧
      t = ⟨.preimageMatches preimage mutations, .ok true⟩ :: (writeEvents 0 done ++
        writeEvent done.length m (.error e) :: rollback) ∧
      UndoneBy preimage done.zipIdx.reverse undos rollback o.rollbackFailures ∧
      o.rollbackFailures.length =
        undos.countP Undo.callFailed + undos.countP (fun u => u.mutation.isRestore) ∧
      (o.state = .partialApply ↔ ∀ u ∈ undos, u.Succeeded) := by
  have hcases := applyRun_of_runs h
  cases hcases with
  | refused r stale =>
      obtain ⟨w, hw, -⟩ := hfailed
      cases hw
  | written done whole verified =>
      obtain ⟨w, hw, e, he⟩ := hfailed
      obtain ⟨createdId, hok⟩ : ∃ createdId, w.2 = .ok createdId :=
        ok_of_mem_writes_writeEvents (by simpa using hw)
      cases he.symm.trans hok
  | failed done m rest e split rollback failures rolled =>
      have hwrites : (done.map Prod.fst).zipIdx.reverse =
          done.zipIdx.reverse.map fun w => (w.1.1, w.2) := by
        rw [List.map_reverse, List.zipIdx_map]
        rfl
      rw [hwrites] at rolled
      obtain ⟨undos, reported, hundone, hout⟩ := runs_rollbackLoop (fun w hw =>
        CreatedIds.lookup_recordAll_eq [] 0 done (fun _ => rfl) (List.mem_reverse.1 hw)) rolled
      rw [List.nil_append] at hout
      subst hout
      refine ⟨done, m, rest, e, undos, rollback, split, rfl, hundone, hundone.length_failures, ?_⟩
      rw [← hundone.failures_eq_nil]
      by_cases hnone : failures = []
      · simp [hnone]
      · simp [hnone]

/-- Over a controller that refuses the third write, what is to be undone is a create and a
restore. -/
theorem rollback_undoes_writes_refusingFrom :
    let plan : List StagedMutation :=
      [.create "network" .null, .restore "b1", .delete "network" "n0"]
    let run := (applySequentially (.fromResources []) plan).eval (refusingFrom 2) ()
    SomeWriteFailed run.2.1 ∧ ∃ done m rest e undos rollback,
      plan = done.map Prod.fst ++ m :: rest ∧
      run.2.1 = ⟨.preimageMatches (.fromResources []) plan, .ok true⟩ :: (writeEvents 0 done ++
        writeEvent done.length m (.error e) :: rollback) ∧
      UndoneBy (.fromResources []) done.zipIdx.reverse undos rollback run.1.rollbackFailures := by
  have hfailed : SomeWriteFailed ((applySequentially (.fromResources [])
      [.create "network" .null, .restore "b1", .delete "network" "n0"]).eval
      (refusingFrom 2) ()).2.1 :=
    ⟨((.delete "network" "n0", 2), .error (.upstream 500 "refused")),
      List.mem_cons_of_mem _ (List.mem_cons_of_mem _ List.mem_cons_self), _, rfl⟩
  obtain ⟨done, m, rest, e, undos, rollback, hplan, ht, hundone, -⟩ :=
    rollback_undoes_writes ((applySequentially _ _).eval_runs (refusingFrom 2) ()) hfailed
  exact ⟨hfailed, done, m, rest, e, undos, rollback, hplan, ht, hundone⟩

end UnifiMcp
