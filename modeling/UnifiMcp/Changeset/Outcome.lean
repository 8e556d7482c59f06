import UnifiMcp.Changeset.Apply
import UnifiMcp.Interaction.World

/-!
# What an outcome says about the calls that were made

A run of `applySequentially` is a list of calls with their answers, and an `Outcome`.
The two are related by splitting the plan: `done` is the part whose writes were
answered `Ok`, with the ids they answered.  `runs_applyLoop` reads this off the forward
loop, `applyRun_of_runs` off the whole function, and `applySequentially_accounted`
is the statement an operator relies on when reading an outcome.
-/

namespace UnifiMcp

open Interaction

/-! ## The forward loop -/

/-- A call of `apply_mutation` with its answer. -/
def writeEvent (index : Nat) (mutation : StagedMutation)
    (answer : Except UnifiError (Option String)) : Event ControllerSig :=
  ⟨.applyMutation index mutation, answer⟩

/-- The calls of a stretch of writes that all succeeded, from position `index` on. -/
def writeEvents : Nat → List (StagedMutation × Option String) → List (Event ControllerSig)
  | _, [] => []
  | index, (mutation, createdId) :: rest =>
      writeEvent index mutation (.ok createdId) :: writeEvents (index + 1) rest

/-- The ids recorded by a stretch of writes that all succeeded. -/
def CreatedIds.recordAll : CreatedIds → Nat → List (StagedMutation × Option String) → CreatedIds
  | createdIds, _, [] => createdIds
  | createdIds, index, (_, createdId) :: rest =>
      (createdIds.record index createdId).recordAll (index + 1) rest

/-- Writes from position `index` on leave the ids recorded before alone. -/
theorem CreatedIds.lookup_recordAll_of_lt (createdIds : CreatedIds) (index : Nat)
    (done : List (StagedMutation × Option String)) {j : Nat} (h : j < index) :
    (createdIds.recordAll index done).lookup j = createdIds.lookup j := by
  induction done generalizing createdIds index with
  | nil => rfl
  | cons d done ih =>
      obtain ⟨m, createdId⟩ := d
      rw [recordAll, ih _ _ (by omega)]
      cases createdId with
      | none => rfl
      | some id =>
          have hne : (j == index) = false := beq_false_of_ne (by omega)
          simp [record, List.lookup_cons, hne]

/-- The id recorded for a position is the one its write was answered with. -/
theorem CreatedIds.lookup_recordAll (createdIds : CreatedIds) (index : Nat)
    (done : List (StagedMutation × Option String)) {j : Nat} {m : StagedMutation} {id : String}
    (h : done[j]? = some (m, some id)) :
    (createdIds.recordAll index done).lookup (index + j) = some id := by
  induction done generalizing createdIds index j with
  | nil => simp at h
  | cons d done ih =>
      cases j with
      | succ j =>
          rw [show index + (j + 1) = index + 1 + j by omega]
          exact ih _ (index + 1) (by simpa using h)
      | zero =>
          obtain rfl : d = (m, some id) := by simpa using h
          rw [recordAll, lookup_recordAll_of_lt _ _ _ (by omega)]
          simp [record]

/-- The forward loop either writes the whole list, or a first part of it and then
fails on one mutation. -/
theorem runs_applyLoop {index : Nat} {mutations : List StagedMutation} {p p' : Progress}
    {t : List (Event ControllerSig)} :
    (applyLoop index mutations p).Runs t p' ↔
      ∃ done : List (StagedMutation × Option String),
        (mutations = done.map Prod.fst ∧ t = writeEvents index done ∧
          p' = { p with
            succeeded := p.succeeded ++ done.map Prod.fst
            createdIds := p.createdIds.recordAll index done }) ∨
        ∃ m rest e, mutations = done.map Prod.fst ++ m :: rest ∧
          t = writeEvents index done ++ [writeEvent (index + done.length) m (.error e)] ∧
          p' =
            { succeeded := p.succeeded ++ done.map Prod.fst
              attemptedAndFailed := p.attemptedAndFailed ++ [m]
              neverAttempted := p.neverAttempted ++ rest
              createdIds := p.createdIds.recordAll index done } := by
  induction mutations generalizing index p t with
  | nil =>
      constructor
      · rintro ⟨rfl, rfl⟩
        exact ⟨[], .inl ⟨rfl, rfl, by simp [CreatedIds.recordAll]⟩⟩
      · rintro ⟨done, ⟨hm, rfl, rfl⟩ | ⟨m, rest, e, hm, -⟩⟩
        · obtain rfl := List.map_eq_nil_iff.1 hm.symm
          exact ⟨rfl, by simp [CreatedIds.recordAll]⟩
        · simp at hm
  | cons mutation mutations ih =>
      constructor
      · rintro ⟨ans, rest, rfl, h⟩
        cases ans with
        | ok createdId =>
            -- The write succeeded: it goes in front of what the rest of the loop wrote.
            obtain ⟨done, ⟨rfl, rfl, rfl⟩ | ⟨m, tail, e, rfl, rfl, rfl⟩⟩ := ih.1 h
            · exact ⟨(mutation, createdId) :: done, .inl ⟨rfl, rfl, by
                simp [CreatedIds.recordAll]⟩⟩
            · have hidx : index + 1 + done.length = index + (done.length + 1) := by omega
              refine ⟨(mutation, createdId) :: done, .inr ⟨m, tail, e, rfl, ?_, ?_⟩⟩
              · rw [hidx]
                rfl
              · simp [CreatedIds.recordAll]
        | error e =>
            obtain ⟨rfl, rfl⟩ := h
            exact ⟨[], .inr ⟨mutation, mutations, e, rfl, rfl, by
              simp [CreatedIds.recordAll]⟩⟩
      · rintro ⟨done, ⟨hm, rfl, rfl⟩ | ⟨m, rest, e, hm, rfl, rfl⟩⟩
        · cases done with
          | nil => cases hm
          | cons d done =>
              cases hm
              refine ⟨.ok d.2, _, rfl, ih.2 ⟨done, .inl ⟨rfl, rfl, ?_⟩⟩⟩
              simp [CreatedIds.recordAll]
        · cases done with
          | nil =>
              cases hm
              exact ⟨.error e, [], rfl, rfl, by simp [CreatedIds.recordAll]⟩
          | cons d done =>
              cases hm
              have hidx : index + (done.length + 1) = index + 1 + done.length := by omega
              refine ⟨.ok d.2, _, rfl, ih.2 ⟨done, .inr ⟨m, rest, e, rfl, ?_, ?_⟩⟩⟩
              · rw [List.length_cons, hidx]
                rfl
              · simp [CreatedIds.recordAll]

/-! ## Rollback -/

/-- A call of `rollback_mutation`. -/
def IsRollback (e : Event ControllerSig) : Prop :=
  match e.op with
  | .rollbackMutation _ _ _ _ => True
  | _ => False

theorem rollbackLoop_step (preimage : Preimage) (createdIds : CreatedIds)
    (mutation : StagedMutation) (index : Nat) (rest : List (StagedMutation × Nat))
    (failures : List String) :
    (∃ failure, rollbackLoop preimage createdIds ((mutation, index) :: rest) failures =
      rollbackLoop preimage createdIds rest (failures ++ [failure])) ∨
    (∃ next, rollbackLoop preimage createdIds ((mutation, index) :: rest) failures =
      .call (.rollbackMutation index mutation (priorValueOf preimage mutation)
        (createdIds.lookup index)) next ∧
      ∀ ans, ∃ failures', next ans = rollbackLoop preimage createdIds rest failures') := by
  cases mutation with
  | restore backupId => exact .inl ⟨_, rfl⟩
  | create kind body | update kind id body | delete kind id =>
      refine .inr ⟨_, rfl, fun ans => ?_⟩
      cases ans with
      | ok u => exact ⟨failures, rfl⟩
      | error e => exact ⟨_, rfl⟩

/-- A rollback makes no other call than `rollback_mutation`. -/
theorem rollbackLoop_isRollback {preimage : Preimage} {createdIds : CreatedIds}
    {items : List (StagedMutation × Nat)} {failures out : List String}
    {t : List (Event ControllerSig)}
    (h : (rollbackLoop preimage createdIds items failures).Runs t out) :
    ∀ e ∈ t, IsRollback e := by
  induction items generalizing failures t with
  | nil =>
      obtain ⟨rfl, -⟩ := h
      simp
  | cons item rest ih =>
      obtain ⟨mutation, index⟩ := item
      rcases rollbackLoop_step preimage createdIds mutation index rest failures with
        ⟨failure, heq⟩ | ⟨next, heq, hnext⟩
      · rw [heq] at h
        exact ih h
      · rw [heq] at h
        obtain ⟨ans, tail, rfl, h⟩ := h
        obtain ⟨failures', heq'⟩ := hnext ans
        rw [heq'] at h
        intro e he
        rcases List.mem_cons.1 he with rfl | he
        · trivial
        · exact ih h e he

/-! ## The whole apply -/

/-- The three ways a run of `apply_sequentially` goes. -/
inductive ApplyRun (preimage : Preimage) (mutations : List StagedMutation) :
    List (Event ControllerSig) → Outcome → Prop where
  /-- The stale check was not answered `Ok(true)`. -/
  | refused (r : Except UnifiError Bool) (stale : r ≠ .ok true) :
      ApplyRun preimage mutations [⟨.preimageMatches preimage mutations, r⟩]
        ⟨.refusedStale, [], mutations, [], mutations, [], none⟩
  /-- Every write succeeded, and verification was asked for. -/
  | written (done : List (StagedMutation × Option String))
      (whole : mutations = done.map Prod.fst) (verified : Except UnifiError Unit) :
      ApplyRun preimage mutations
        (⟨.preimageMatches preimage mutations, .ok true⟩ :: (writeEvents 0 done ++
          [⟨.verifyApplied mutations (CreatedIds.recordAll [] 0 done), verified⟩]))
        ⟨match verified with
          | .ok () => .applied
          | .error _ => .appliedUnverified,
          mutations, [], [], [], [],
          match verified with
          | .ok () => none
          | .error error => some error.toString⟩
  /-- The write of `m` failed, and what had been written was rolled back. -/
  | failed (done : List (StagedMutation × Option String)) (m : StagedMutation)
      (rest : List StagedMutation) (e : UnifiError)
      (split : mutations = done.map Prod.fst ++ m :: rest)
      (rollback : List (Event ControllerSig)) (failures : List String)
      (rolled : (rollbackLoop preimage (CreatedIds.recordAll [] 0 done)
        (done.map Prod.fst).zipIdx.reverse []).Runs rollback failures) :
      ApplyRun preimage mutations
        (⟨.preimageMatches preimage mutations, .ok true⟩ :: (writeEvents 0 done ++
          writeEvent done.length m (.error e) :: rollback))
        ⟨if failures = [] then .partialApply else .partialRollbackFailed,
          done.map Prod.fst, m :: rest, [m], rest, failures, none⟩

theorem runs_rollbackToPreimage {preimage : Preimage} {succeeded : List StagedMutation}
    {createdIds : CreatedIds} {t : List (Event ControllerSig)}
    {r : Except (List String) Unit} :
    (rollbackToPreimage preimage succeeded createdIds).Runs t r ↔
      ∃ failures,
        (rollbackLoop preimage createdIds succeeded.zipIdx.reverse []).Runs t failures ∧
          r = if failures = [] then .ok () else .error failures := by
  rw [rollbackToPreimage, Program.runs_bind]
  constructor
  · rintro ⟨t₁, t₂, failures, rfl, h, rfl, rfl⟩
    refine ⟨failures, by simpa using h, ?_⟩
    cases failures <;> rfl
  · rintro ⟨failures, h, rfl⟩
    refine ⟨t, [], failures, by simp, h, rfl, ?_⟩
    cases failures <;> rfl

/-- **Every run of `apply_sequentially` goes one of three ways.** -/
theorem applyRun_of_runs {preimage : Preimage} {mutations : List StagedMutation}
    {t : List (Event ControllerSig)} {o : Outcome}
    (h : (applySequentially preimage mutations).Runs t o) :
    ApplyRun preimage mutations t o := by
  obtain ⟨r, rest, rfl, hrest⟩ := Program.runs_perform_bind.1 h
  by_cases hr : r = .ok true
  · subst hr
    obtain ⟨t₁, t₂, p, rfl, hloop, hrest⟩ := Program.runs_bind.1 hrest
    rcases runs_applyLoop.1 hloop with
      ⟨done, ⟨hms, rfl, rfl⟩ | ⟨m, rest, e, hms, rfl, rfl⟩⟩
    · obtain ⟨verified, t₃, rfl, rfl, rfl⟩ := Program.runs_perform_bind.1 hrest
      have hrun := @ApplyRun.written preimage mutations done hms verified
      cases verified <;> simpa [hms] using hrun
    · obtain ⟨t₃, t₄, rb, rfl, hrb, rfl, rfl⟩ := Program.runs_bind.1 hrest
      obtain ⟨failures, hrolled, rfl⟩ := runs_rollbackToPreimage.1 hrb
      have hrun := ApplyRun.failed done m rest e hms t₃ failures (by simpa using hrolled)
      by_cases hf : failures = []
      · simpa [hf] using hrun
      · simpa [hf] using hrun
  · have hout : rest = [] ∧
        (⟨.refusedStale, [], mutations, [], mutations, [], none⟩ : Outcome) = o := by
      match r, hr, hrest with
      | .ok false, _, hrest => exact hrest
      | .error _, _, hrest => exact hrest
      | .ok true, hr, _ => exact absurd rfl hr
    obtain ⟨rfl, rfl⟩ := hout
    exact .refused r hr

/-- A run in which every write succeeded exists whatever ids the writes answer. -/
theorem runs_written (preimage : Preimage) (done : List (StagedMutation × Option String))
    (verified : Except UnifiError Unit) :
    ∃ o, (applySequentially preimage (done.map Prod.fst)).Runs
        (⟨.preimageMatches preimage (done.map Prod.fst), .ok true⟩ :: (writeEvents 0 done ++
          [⟨.verifyApplied (done.map Prod.fst) (CreatedIds.recordAll [] 0 done), verified⟩])) o ∧
      o.state = match verified with
        | .ok () => .applied
        | .error _ => .appliedUnverified := by
  have hloop : (applyLoop 0 (done.map Prod.fst) ⟨[], [], [], []⟩).Runs (writeEvents 0 done)
      ⟨done.map Prod.fst, [], [], CreatedIds.recordAll [] 0 done⟩ :=
    runs_applyLoop.2 ⟨done, .inl ⟨rfl, rfl, rfl⟩⟩
  refine ⟨_, Program.runs_perform_bind.2 ⟨_, _, rfl,
    Program.runs_bind.2 ⟨_, _, _, rfl, hloop, Program.runs_perform_bind.2 ⟨_, [], rfl, rfl, rfl⟩⟩⟩,
    ?_⟩
  cases verified <;> rfl

/-! ## Reading the calls off a trace -/

/-- The index, mutation and answer of a call of `apply_mutation`. -/
def writeOf : Event ControllerSig →
    Option ((StagedMutation × Nat) × Except UnifiError (Option String))
  | ⟨.applyMutation index mutation, answer⟩ => some ((mutation, index), answer)
  | _ => none

/-- The calls of `apply_mutation` in a trace, in order. -/
def writes (t : List (Event ControllerSig)) :
    List ((StagedMutation × Nat) × Except UnifiError (Option String)) :=
  t.filterMap writeOf

/-- The answer of a call of `verify_applied`. -/
def verificationOf : Event ControllerSig → Option (Except UnifiError Unit)
  | ⟨.verifyApplied _ _, answer⟩ => some answer
  | _ => none

/-- The answer of the verification in a trace, if there was one. -/
def verification (t : List (Event ControllerSig)) : Option (Except UnifiError Unit) :=
  (t.filterMap verificationOf).head?

@[simp] theorem writes_nil : writes [] = [] := rfl

@[simp] theorem writes_append (t₁ t₂ : List (Event ControllerSig)) :
    writes (t₁ ++ t₂) = writes t₁ ++ writes t₂ :=
  List.filterMap_append

@[simp] theorem writes_preimageMatches (preimage : Preimage) (mutations : List StagedMutation)
    (r : Except UnifiError Bool) (t : List (Event ControllerSig)) :
    writes (⟨.preimageMatches preimage mutations, r⟩ :: t) = writes t := rfl

@[simp] theorem writes_verifyApplied (mutations : List StagedMutation) (ids : CreatedIds)
    (r : Except UnifiError Unit) (t : List (Event ControllerSig)) :
    writes (⟨.verifyApplied mutations ids, r⟩ :: t) = writes t := rfl

@[simp] theorem writes_writeEvent (index : Nat) (m : StagedMutation)
    (r : Except UnifiError (Option String)) (t : List (Event ControllerSig)) :
    writes (writeEvent index m r :: t) = ((m, index), r) :: writes t := rfl

/-- Among successful writes, the writes are the mutations with their positions. -/
theorem writes_writeEvents (index : Nat) (done : List (StagedMutation × Option String)) :
    writes (writeEvents index done) =
      ((done.map Prod.fst).zipIdx index).zip (done.map fun d => .ok d.2) := by
  induction done generalizing index with
  | nil => rfl
  | cons d done ih =>
      obtain ⟨m, createdId⟩ := d
      rw [writeEvents, writes_writeEvent, ih]
      rfl

theorem map_fst_writes_writeEvents (index : Nat)
    (done : List (StagedMutation × Option String)) :
    (writes (writeEvents index done)).map Prod.fst = (done.map Prod.fst).zipIdx index := by
  rw [writes_writeEvents]
  exact List.map_fst_zip (by simp)

theorem ok_of_mem_writes_writeEvents {index : Nat}
    {done : List (StagedMutation × Option String)} {w}
    (h : w ∈ writes (writeEvents index done)) : ∃ createdId, w.2 = .ok createdId := by
  rw [writes_writeEvents] at h
  obtain ⟨d, -, hd⟩ := List.mem_map.1 (List.of_mem_zip h).2
  exact ⟨d.2, hd.symm⟩

theorem writeOf_eq_none {e : Event ControllerSig} (h : IsRollback e) : writeOf e = none := by
  obtain ⟨op, ans⟩ := e
  cases op <;> first | rfl | cases h

theorem verificationOf_eq_none {e : Event ControllerSig} (h : IsRollback e) :
    verificationOf e = none := by
  obtain ⟨op, ans⟩ := e
  cases op <;> first | rfl | cases h

/-- A rollback writes nothing forward. -/
theorem writes_eq_nil {t : List (Event ControllerSig)} (h : ∀ e ∈ t, IsRollback e) :
    writes t = [] :=
  List.filterMap_eq_nil_iff.2 fun e he => writeOf_eq_none (h e he)

theorem filterMap_verificationOf_writeEvents (index : Nat)
    (done : List (StagedMutation × Option String)) :
    (writeEvents index done).filterMap verificationOf = [] := by
  induction done generalizing index with
  | nil => rfl
  | cons d done ih =>
      obtain ⟨m, createdId⟩ := d
      exact ih (index + 1)

/-- A failed apply asks for no verification. -/
theorem verification_failed (preimage : Preimage) (mutations : List StagedMutation)
    (r : Except UnifiError Bool) (index : Nat)
    (done : List (StagedMutation × Option String)) (i : Nat) (m : StagedMutation)
    (e : UnifiError) {rollback : List (Event ControllerSig)}
    (h : ∀ e ∈ rollback, IsRollback e) :
    verification (⟨.preimageMatches preimage mutations, r⟩ :: (writeEvents index done ++
      writeEvent i m (.error e) :: rollback)) = none := by
  have hroll : rollback.filterMap verificationOf = [] :=
    List.filterMap_eq_nil_iff.2 fun e he => verificationOf_eq_none (h e he)
  have hfail : (writeEvent i m (.error e) :: rollback).filterMap verificationOf = [] := hroll
  have hall : (writeEvents index done ++
      writeEvent i m (.error e) :: rollback).filterMap verificationOf = [] := by
    rw [List.filterMap_append, filterMap_verificationOf_writeEvents, hfail]
    rfl
  exact congrArg List.head? hall

/-- A complete apply asks for one. -/
theorem verification_written (preimage : Preimage) (mutations : List StagedMutation)
    (r : Except UnifiError Bool) (index : Nat)
    (done : List (StagedMutation × Option String)) (ms : List StagedMutation)
    (ids : CreatedIds) (verified : Except UnifiError Unit) :
    verification (⟨.preimageMatches preimage mutations, r⟩ :: (writeEvents index done ++
      [⟨.verifyApplied ms ids, verified⟩])) = some verified := by
  have hall : List.filterMap verificationOf (writeEvents index done ++
      [⟨.verifyApplied ms ids, verified⟩]) = [verified] := by
    rw [List.filterMap_append, filterMap_verificationOf_writeEvents]
    rfl
  exact congrArg List.head? hall

/-- Every mutation was written, in order, and every write was answered `Ok`. -/
def AllWritesSucceeded (mutations : List StagedMutation) (t : List (Event ControllerSig)) :
    Prop :=
  (writes t).map Prod.fst = mutations.zipIdx ∧ ∀ w ∈ writes t, ∃ createdId, w.2 = .ok createdId

/-- Some write was answered `Err`. -/
def SomeWriteFailed (t : List (Event ControllerSig)) : Prop :=
  ∃ w ∈ writes t, ∃ e, w.2 = .error e

/-- What an outcome says of the plan, the calls made and their answers. -/
structure Accounted (preimage : Preimage) (mutations : List StagedMutation)
    (t : List (Event ControllerSig)) (o : Outcome) : Prop where
  partition : o.succeeded ++ o.attemptedAndFailed ++ o.neverAttempted = mutations
  failed_eq : o.failed = o.attemptedAndFailed ++ o.neverAttempted
  atMostOne : o.attemptedAndFailed.length ≤ 1
  refused : o.state = .refusedStale →
    o.succeeded = [] ∧ o.attemptedAndFailed = [] ∧ o.neverAttempted = mutations
  /-- The first call is the stale check, and there is no write unless it was `Ok(true)`. -/
  checkedFirst : ∃ r rest, t = ⟨.preimageMatches preimage mutations, r⟩ :: rest ∧
    (writes rest ≠ [] → r = .ok true) ∧ (o.state = .refusedStale ↔ r ≠ .ok true)
  written : (writes t).map Prod.fst = (o.succeeded ++ o.attemptedAndFailed).zipIdx
  applied_iff : o.state = .applied ↔
    AllWritesSucceeded mutations t ∧ verification t = some (.ok ())
  appliedUnverified_iff : o.state = .appliedUnverified ↔
    AllWritesSucceeded mutations t ∧ ∃ e, verification t = some (.error e)
  partialApply_iff : o.state = .partialApply ↔ SomeWriteFailed t ∧ o.rollbackFailures = []
  partialRollbackFailed_iff : o.state = .partialRollbackFailed ↔
    SomeWriteFailed t ∧ o.rollbackFailures ≠ []

/-- **What an outcome says is what was done.**  Of every run of `apply_sequentially`, over
any controller, the outcome splits the plan at the write that failed, the calls made are
the part up to that write, and the state is decided by the stale check, the writes, the
verification and the recorded rollback failures. -/
theorem applySequentially_accounted {preimage : Preimage} {mutations : List StagedMutation}
    {t : List (Event ControllerSig)} {o : Outcome}
    (h : (applySequentially preimage mutations).Runs t o) :
    Accounted preimage mutations t o := by
  cases applyRun_of_runs h with
  | refused r stale =>
      have hver : verification [⟨.preimageMatches preimage mutations, r⟩] = none := rfl
      refine ⟨rfl, rfl, by simp, fun _ => ⟨rfl, rfl, rfl⟩, ⟨r, [], rfl, by simp, by simp [stale]⟩,
        rfl, ?_, ?_, ?_, ?_⟩
      · simp [hver]
      · simp [hver]
      · simp [SomeWriteFailed]
      · simp [SomeWriteFailed]
  | written done whole verified =>
      have hall : AllWritesSucceeded mutations
          (⟨.preimageMatches preimage mutations, .ok true⟩ :: (writeEvents 0 done ++
            [⟨.verifyApplied mutations (CreatedIds.recordAll [] 0 done), verified⟩])) := by
        refine ⟨?_, ?_⟩
        · simp [map_fst_writes_writeEvents, whole]
        · intro w hw
          exact ok_of_mem_writes_writeEvents (by simpa using hw)
      have hnone : ¬ SomeWriteFailed
          (⟨.preimageMatches preimage mutations, .ok true⟩ :: (writeEvents 0 done ++
            [⟨.verifyApplied mutations (CreatedIds.recordAll [] 0 done), verified⟩])) := by
        rintro ⟨w, hw, e, he⟩
        obtain ⟨createdId, hok⟩ := hall.2 w hw
        cases he.symm.trans hok
      have hver := verification_written preimage mutations (.ok true) 0 done mutations
        (CreatedIds.recordAll [] 0 done) verified
      refine ⟨by simp, rfl, by simp, ?_, ⟨.ok true, _, rfl, fun _ => rfl, ?_⟩, ?_, ?_, ?_, ?_, ?_⟩
      · cases verified <;> simp
      · cases verified <;> simp
      · simp [map_fst_writes_writeEvents, whole]
      · rw [hver]
        cases verified <;> simp [hall]
      · rw [hver]
        cases verified <;> simp [hall]
      · cases verified <;> simp [hnone]
      · cases verified <;> simp [hnone]
  | failed done m rest e split rollback failures rolled =>
      have hroll := rollbackLoop_isRollback rolled
      have hwrites : writes (⟨.preimageMatches preimage mutations, .ok true⟩ ::
          (writeEvents 0 done ++ writeEvent done.length m (.error e) :: rollback)) =
          writes (writeEvents 0 done) ++ [((m, done.length), .error e)] := by
        simp [writes_eq_nil hroll]
      have hsome : SomeWriteFailed (⟨.preimageMatches preimage mutations, .ok true⟩ ::
          (writeEvents 0 done ++ writeEvent done.length m (.error e) :: rollback)) :=
        ⟨((m, done.length), .error e), by simp [hwrites], e, rfl⟩
      have hver := verification_failed preimage mutations (.ok true) 0 done done.length m e hroll
      refine ⟨by simp [split], rfl, by simp, ?_, ⟨.ok true, _, rfl, fun _ => rfl, ?_⟩, ?_, ?_, ?_,
        ?_, ?_⟩
      · split <;> simp
      · split <;> simp
      · rw [hwrites]
        simp [map_fst_writes_writeEvents, List.zipIdx_append]
      · rw [hver]
        split <;> simp
      · rw [hver]
        split <;> simp
      · by_cases hf : failures = [] <;> simp [hf, hsome]
      · by_cases hf : failures = [] <;> simp [hf, hsome]

/-- A controller that refuses every write from position `limit` on. -/
def refusingFrom (limit : Nat) : (op : ControllerOp) → Unit → op.Answer × Unit
  | .applyMutation index _, s =>
      (if index < limit then .ok (some "n1") else .error (.upstream 500 "refused"), s)
  | .rollbackMutation _ _ _ _, s | .verifyApplied _ _, s => (.ok (), s)
  | .preimageMatches _ _, s => (.ok true, s)

/-- Over a controller that accepts one write of three, the outcome is `Partial` with the
plan split after the first. -/
theorem applySequentially_accounted_refusingFrom :
    let plan : List StagedMutation :=
      [.create "network" .null, .create "wlan" .null, .delete "network" "n0"]
    let run := (applySequentially (.fromResources []) plan).eval (refusingFrom 1) ()
    run.1.state = .partialApply ∧ run.1.attemptedAndFailed = [.create "wlan" .null] ∧
      Accounted (.fromResources []) plan run.2.1 run.1 :=
  ⟨rfl, rfl, applySequentially_accounted ((applySequentially _ _).eval_runs (refusingFrom 1) ())⟩

end UnifiMcp
