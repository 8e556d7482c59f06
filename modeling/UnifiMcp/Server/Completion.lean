import UnifiMcp.Interaction.Progress
import UnifiMcp.Server.Authority

/-!
# Every call can come to its end

The one thing a handler waits for is the plan lock, and it asks controllers and the coordinator
questions of any number before and after.  `brackets_handleCall` says that every tool keeps to the
lock, and with a coordinator that answers what it is asked (`Coordinator.Total`) the surroundings
answer everything but a second taking of the lock (`serverStep_answered`).  So from every pool of
calls that can be reached, wherever each of the calls stands, all of them can be run to their
ends: `calls_can_complete`.
-/

namespace UnifiMcp

open Interaction Collections

variable {C : Coordinator} {server : UnifiServer} {kit : ReadKit}

theorem ServerOp.Acts.unlocked {controller : String} {op : ServerOp} (h : op.Acts controller) :
    op.Unlocked := by
  cases op with
  | clientFor _ | client _ _ => exact ⟨rfl, id⟩
  | _ => exact h.elim

/-- **Every tool keeps to the plan lock.** -/
theorem brackets_handleCall (k : ServerCall) :
    (server.handleCall kit k).Brackets planLock false false := by
  cases k with
  | read caller call =>
      exact brackets_of_unlocked ((asks_handleRead_reads caller call).mono fun _ hop =>
        hop.unlocked)
  | changeSet call => exact brackets_handle call
  | deviceAction caller args =>
      exact brackets_of_unlocked ((asks_unifiDeviceAction_acts caller args).mono fun _ hop =>
        hop.unlocked)
  | clientAction caller args =>
      exact brackets_of_unlocked ((asks_unifiClientAction_acts caller args).mono fun _ hop =>
        hop.unlocked)
  | backupAction caller args =>
      exact brackets_of_unlocked ((asks_unifiBackupAction_acts caller args).mono fun _ hop =>
        hop.unlocked)

/-- Answers to every question that the surroundings can give, that for the plan lock while it is
free. -/
def AnswersAll (C : Coordinator)
    (answer : (op : ServerOp) → ServerWorld C → op.Answer × ServerWorld C) : Prop :=
  ∀ w op, (op = .lockPlan → w.planLocked = false) →
    ServerStep C w ⟨op, (answer op w).1⟩ (answer op w).2

theorem AnswersAll.answeredBy
    {answer : (op : ServerOp) → ServerWorld C → op.Answer × ServerWorld C}
    (h : AnswersAll C answer) :
    planLock.AnsweredBy (ServerStep C) ServerWorld.planLocked answer where
  answers := by
    intro w op hfree
    refine h w op ?_
    rintro rfl
    exact hfree rfl
  freed := by
    rintro w ⟨op, answer⟩ w' hstep heffect
    cases op with
    | unlockPlan =>
        have hw : w' = { w with planLocked := false } := hstep
        rw [hw]
    | _ => cases heffect

/-- **No call is kept waiting for ever.**  From every pool of calls of all tools that can be
reached while the plan lock was free at first, whichever of the calls holds the lock, however far
each has come and whatever the controllers, the coordinator and the rest of the surroundings
answer from then on, all calls can be run to their ends without another one being started, and
the plan lock is free then. -/
theorem calls_can_complete
    {answer : (op : ServerOp) → ServerWorld C → op.Answer × ServerWorld C}
    (hanswer : AnswersAll C answer) {init : ServerWorld C} (hinit : init.planLocked = false)
    {p : ServerPool C} (h : p.Reachable (server.handleCall kit) (ServerStep C) init) :
    ∃ (w : ServerWorld C) (t : List (Nat × Event ServerSig)),
      Pool.Reachable (server.handleCall kit) (ServerStep C) init ⟨w, p.calls, p.log ++ t⟩ ∧
      Path (Answers answer) p.world (t.map Prod.snd) w ∧ w.planLocked = false ∧
      ∀ i k, p.calls[i]? = some k →
        ∃ result, (server.handleCall kit k).Runs (ownEvents (p.log ++ t) i) result := by
  obtain ⟨⟨w, calls, log⟩, h', hcontinues, hfree, hended⟩ :=
    h.completes planLock_keptBy hanswer.answeredBy hinit brackets_handleCall
  obtain ⟨hcalls, t, hlog, hpath⟩ := hcontinues
  cases hcalls
  cases hlog
  exact ⟨w, t, h', hpath, hfree, hended⟩

/-- The surroundings over the coordinator in memory answer everything. -/
theorem answersAll_outside (outside : Outside) :
    AnswersAll MemoryStore.coordinator outside.answer :=
  fun _ _ hfree => serverStep_of_answers rfl hfree

/-- After the gated calls, another approval and another apply that have been started. -/
theorem calls_can_complete_gated : ∃ (w : ServerWorld MemoryStore.coordinator)
    (t : List (Nat × Event ServerSig)) (result : Except String Json),
      (gatedServer.handleCall .plain (.changeSet
        (.apply (humanWith "carol" "unifi_apply_change_set" none) ⟨"main", "cs-1"⟩))).Runs
          (ownEvents (gatedPool.log ++ t) 5) result ∧ w.planLocked = false := by
  have hstarted := (gatedPool_reachable.start (.changeSet
    (.approve (humanWith "bob" "unifi_approve_change_set" none) ⟨"main", "cs-1", none⟩))).start
    (.changeSet (.apply (humanWith "carol" "unifi_apply_change_set" none) ⟨"main", "cs-1"⟩))
  obtain ⟨w, t, -, -, hfree, hended⟩ := calls_can_complete
    (answersAll_outside (oneController policyClient createReply)) rfl hstarted
  obtain ⟨result, hrun⟩ := hended 5 _ rfl
  exact ⟨w, t, result, hrun, hfree⟩

end UnifiMcp
