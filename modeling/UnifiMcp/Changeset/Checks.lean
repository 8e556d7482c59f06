import UnifiMcp.Client.ControllerOps
import UnifiMcp.Changeset.Outcome

/-!
# When the stale check and the verification succeed

Both read resources one after another and compare each answer with something.
`Matches` and `Confirms` are these comparisons written along the trace of reads, one
read for each mutation that asks for one; `readBack` picks out of a verification the
answer to the read made for a given position of the plan.
-/

namespace UnifiMcp

open Interaction

/-- A read that was answered. -/
def readEvent (op : FetchOp) (r : Option Json) : Event FetchSig := ⟨op, .ok r⟩

theorem gives_fetch {kind id : String} {t : List (Event FetchSig)}
    {r : Except UnifiError (Option Json)} :
    (FetchM.fetch kind id).Gives t r ↔ t = [⟨⟨kind, id⟩, r⟩] :=
  Program.runs_perform

/-- A read that is followed by what its answer calls for. -/
theorem gives_fetch_bind {kind id : String} {α : Type} {f : Option Json → FetchM α}
    {t : List (Event FetchSig)} {r : Except UnifiError α} :
    (FetchM.fetch kind id >>= f).Gives t r ↔
      ∃ ans tail, t = ⟨⟨kind, id⟩, ans⟩ :: tail ∧
        match ans with
        | .error e => tail = [] ∧ r = .error e
        | .ok live => (f live).Gives tail r := by
  rw [Fallible.gives_bind]
  constructor
  · rintro (⟨e, rfl, h⟩ | ⟨t₁, t₂, live, rfl, h₁, h₂⟩)
    · exact ⟨.error e, [], gives_fetch.1 h, rfl, rfl⟩
    · rw [gives_fetch] at h₁
      subst h₁
      exact ⟨.ok live, t₂, rfl, h₂⟩
  · rintro ⟨ans, tail, rfl, h⟩
    cases ans with
    | error e =>
        obtain ⟨rfl, rfl⟩ := h
        exact .inl ⟨e, rfl, gives_fetch.2 rfl⟩
    | ok live => exact .inr ⟨[_], tail, live, rfl, gives_fetch.2 rfl, h⟩

/-! ## The stale check -/

/-- The reads of a stale check that found every resource as the pre-image has it. -/
def Matches (preimage : Preimage) : List StagedMutation → List (Event FetchSig) → Prop
  | [], t => t = []
  | m :: rest, t =>
      match m.target with
      | none => Matches preimage rest t
      | some (kind, id) => ∃ v tail, preimage.getResource id = some v ∧
          t = readEvent ⟨kind, id⟩ (some v) :: tail ∧ Matches preimage rest tail

/-- What the stale check does with a mutation that addresses a resource. -/
theorem gives_preimageMatches_target {preimage : Preimage} {m : StagedMutation}
    {rest : List StagedMutation} {kind id : String} (h : m.target = some (kind, id))
    {t : List (Event FetchSig)} {r : Except UnifiError Bool} :
    (preimageMatches preimage (m :: rest)).Gives t r ↔
      match preimage.getResource id with
      | none => t = [] ∧ r = .ok false
      | some recorded => ∃ ans tail, t = ⟨⟨kind, id⟩, ans⟩ :: tail ∧
          match ans with
          | .error e => tail = [] ∧ r = .error e
          | .ok live =>
              if live = some recorded then (preimageMatches preimage rest).Gives tail r
              else tail = [] ∧ r = .ok false := by
  cases hget : preimage.getResource id with
  | none =>
      have hstep : preimageMatches preimage (m :: rest) = pure false := by
        cases m with
        | create kind' body | restore backupId => cases h
        | update kind' id' body | delete kind' id' =>
            cases h
            simp only [preimageMatches, hget]
      rw [hstep]
      exact Fallible.gives_pure
  | some recorded =>
      have hstep : preimageMatches preimage (m :: rest) = FetchM.fetch kind id >>= fun live =>
          if live = some recorded then preimageMatches preimage rest else pure false := by
        cases m with
        | create kind' body | restore backupId => cases h
        | update kind' id' body | delete kind' id' =>
            cases h
            simp only [preimageMatches, hget]
            refine congrArg (FetchM.fetch kind id >>= ·) (funext fun live => ?_)
            cases live <;> simp
      rw [hstep, gives_fetch_bind]
      refine exists_congr fun ans => exists_congr fun tail => and_congr_right fun _ => ?_
      cases ans with
      | error e => exact Iff.rfl
      | ok live =>
          by_cases hlive : live = some recorded
          · simp [hlive]
          · simp [hlive]

theorem preimageMatches_none {preimage : Preimage} {m : StagedMutation}
    {rest : List StagedMutation} (h : m.target = none) :
    preimageMatches preimage (m :: rest) = preimageMatches preimage rest := by
  cases m with
  | create kind body | restore backupId => rfl
  | update kind id body | delete kind id => cases h

/-- **The stale check passes** exactly when every resource addressed is in the pre-image
and was read back equal to it. -/
theorem gives_preimageMatches_true {preimage : Preimage} {mutations : List StagedMutation}
    {t : List (Event FetchSig)} :
    (preimageMatches preimage mutations).Gives t (.ok true) ↔ Matches preimage mutations t := by
  induction mutations generalizing t with
  | nil =>
      rw [preimageMatches, Fallible.gives_pure, Matches]
      simp
  | cons m rest ih =>
      cases htarget : m.target with
      | none => rw [preimageMatches_none htarget, ih, Matches, htarget]
      | some target =>
          obtain ⟨kind, id⟩ := target
          rw [gives_preimageMatches_target htarget, Matches, htarget]
          cases hget : preimage.getResource id with
          | none => simp [hget]
          | some recorded =>
              dsimp only
              rw [hget]
              constructor
              · rintro ⟨ans, tail, rfl, h⟩
                cases ans with
                | error e => cases h.2
                | ok live =>
                    dsimp only at h
                    split_ifs at h with hl
                    · exact ⟨recorded, tail, rfl, by rw [hl]; rfl, ih.1 h⟩
                    · cases h.2
              · rintro ⟨v, tail, hv, rfl, h⟩
                cases hv
                exact ⟨.ok (some recorded), tail, rfl, by simpa using ih.2 h⟩

theorem Matches.getResource {preimage : Preimage} {mutations : List StagedMutation}
    {t : List (Event FetchSig)} (h : Matches preimage mutations t) {m : StagedMutation}
    (hm : m ∈ mutations) {kind id : String} (htarget : m.target = some (kind, id)) :
    ∃ v, preimage.getResource id = some v ∧ readEvent ⟨kind, id⟩ (some v) ∈ t := by
  induction mutations generalizing t with
  | nil => cases hm
  | cons m' rest ih =>
      rw [Matches] at h
      cases hm' : m'.target with
      | none =>
          rw [hm'] at h
          rcases List.mem_cons.1 hm with rfl | hm
          · rw [hm'] at htarget
            cases htarget
          · exact ih h hm
      | some target =>
          rw [hm'] at h
          obtain ⟨v, tail, hv, rfl, h⟩ := h
          rcases List.mem_cons.1 hm with rfl | hm
          · rw [hm'] at htarget
            cases htarget
            exact ⟨v, hv, List.mem_cons_self⟩
          · obtain ⟨v', hv', hmem⟩ := ih h hm
            exact ⟨v', hv', List.mem_cons_of_mem _ hmem⟩

/-- Each read of a check that passed found what the pre-image has under the id. -/
theorem Matches.of_mem {preimage : Preimage} {mutations : List StagedMutation}
    {t : List (Event FetchSig)} (h : Matches preimage mutations t) {e : Event FetchSig}
    (he : e ∈ t) : ∃ v, preimage.getResource e.op.id = some v ∧ e.answer = .ok (some v) := by
  induction mutations generalizing t with
  | nil =>
      rw [show t = [] from h] at he
      cases he
  | cons m rest ih =>
      rw [Matches] at h
      cases hm : m.target with
      | none =>
          rw [hm] at h
          exact ih h he
      | some target =>
          rw [hm] at h
          obtain ⟨v, tail, hv, rfl, h⟩ := h
          rcases List.mem_cons.1 he with rfl | he
          · exact ⟨v, hv, rfl⟩
          · exact ih h he

/-- A pre-image that covers a plan can be matched. -/
theorem exists_matches (preimage : Preimage) {mutations : List StagedMutation}
    (h : ∀ m ∈ mutations, ∀ kind id, m.target = some (kind, id) →
      (preimage.getResource id).isSome) :
    ∃ t, Matches preimage mutations t ∧
      ∀ e ∈ t, ∃ m ∈ mutations, m.target = some (e.op.kind, e.op.id) ∧
        ∃ r, e.answer = .ok r := by
  induction mutations with
  | nil => exact ⟨[], rfl, by simp⟩
  | cons m rest ih =>
      obtain ⟨t, ht, hops⟩ := ih fun m' hm' => h m' (List.mem_cons_of_mem _ hm')
      have hops' : ∀ e ∈ t, ∃ m' ∈ m :: rest, m'.target = some (e.op.kind, e.op.id) ∧
          ∃ r, e.answer = .ok r := by
        intro e he
        obtain ⟨m', hm', hrest⟩ := hops e he
        exact ⟨m', List.mem_cons_of_mem _ hm', hrest⟩
      cases hm : m.target with
      | none => exact ⟨t, by rwa [Matches, hm], hops'⟩
      | some target =>
          obtain ⟨kind, id⟩ := target
          obtain ⟨v, hv⟩ := Option.isSome_iff_exists.1 (h m List.mem_cons_self kind id hm)
          refine ⟨readEvent ⟨kind, id⟩ (some v) :: t, ?_, ?_⟩
          · rw [Matches, hm]
            exact ⟨v, t, hv, rfl, ht⟩
          · intro e he
            rcases List.mem_cons.1 he with rfl | he
            · exact ⟨m, List.mem_cons_self, hm, some v, rfl⟩
            · exact hops' e he

/-! ## Verification -/

/-- The read verification makes for a mutation, if it makes one. -/
def readOf (createdIds : CreatedIds) (index : Nat) : StagedMutation → Option FetchOp
  | .create kind _ => (createdIds.lookup index).map fun id => ⟨kind, id⟩
  | .update kind id _ | .delete kind id => some ⟨kind, id⟩
  | .restore _ => none

/-- The answers verification is content with. -/
def Accepts : StagedMutation → Option Json → Prop
  | .create _ _, some _ => True
  | .update _ _ body, some fetched =>
      ∀ expectedName, body.get? "name" = some expectedName →
        fetched.get? "name" = some expectedName
  | .delete _ _, none => True
  | _, _ => False

/-- The reads of a verification that found nothing wrong. -/
def Confirms (createdIds : CreatedIds) :
    Nat → List StagedMutation → List (Event FetchSig) → Prop
  | _, [], t => t = []
  | index, m :: rest, t =>
      match readOf createdIds index m with
      | none => Confirms createdIds (index + 1) rest t
      | some op => ∃ r tail, t = readEvent op r :: tail ∧ Accepts m r ∧
          Confirms createdIds (index + 1) rest tail

/-- The answer to the read a verification made for the `j`-th of the mutations. -/
def readBack (createdIds : CreatedIds) : Nat → List StagedMutation → List (Event FetchSig) →
    Nat → Option (Except UnifiError (Option Json))
  | _, [], _, _ => none
  | index, m :: _, t, 0 => (readOf createdIds index m).bind fun _ => t.head?.map Event.answer
  | index, m :: rest, t, j + 1 =>
      readBack createdIds (index + 1) rest
        (if (readOf createdIds index m).isSome then t.tail else t) j

/-- A read that is followed by a verdict on its answer. -/
theorem gives_attempt_fetch_bind {kind id : String} {α : Type}
    {f : Except UnifiError (Option Json) → FetchM α} {t : List (Event FetchSig)}
    {r : Except UnifiError α} :
    ((FetchM.fetch kind id).attempt >>= f).Gives t r ↔
      ∃ ans tail, t = ⟨⟨kind, id⟩, ans⟩ :: tail ∧ (f ans).Gives tail r := Iff.rfl

/-- Verification makes the read of each mutation, and no other. -/
theorem asks_verifyMutation (createdIds : CreatedIds) (index : Nat) (m : StagedMutation) :
    (verifyMutation createdIds index m).Asks fun op => readOf createdIds index m = some op := by
  have hattempt : ∀ kind id, readOf createdIds index m = some ⟨kind, id⟩ →
      ((FetchM.fetch kind id).attempt).Asks fun op => readOf createdIds index m = some op :=
    fun kind id hread => Fallible.Asks.attempt ⟨hread, fun _ => trivial⟩
  cases m with
  | create kind body =>
      rw [verifyMutation]
      cases hid : createdIds.lookup index with
      | none => exact Fallible.asks_pure _
      | some id =>
          refine (hattempt kind id (by rw [readOf, hid]; rfl)).bind fun r => ?_
          rcases r with _ | (_ | _) <;> trivial
  | update kind id body =>
      refine (hattempt kind id rfl).bind fun r => ?_
      rcases r with _ | (_ | fetched)
      · trivial
      · trivial
      · dsimp only
        split
        · split_ifs <;> trivial
        · trivial
  | delete kind id =>
      refine (hattempt kind id rfl).bind fun r => ?_
      rcases r with _ | (_ | _) <;> trivial
  | restore backupId => exact Fallible.asks_pure _

theorem asks_verifyLoop (createdIds : CreatedIds) (index : Nat) (mutations : List StagedMutation) :
    (verifyLoop createdIds index mutations).Asks fun op =>
      ∃ j m, mutations[j]? = some m ∧ readOf createdIds (index + j) m = some op := by
  induction mutations generalizing index with
  | nil => exact Fallible.asks_pure _
  | cons m rest ih =>
      refine ((asks_verifyMutation createdIds index m).mono fun op hop => ?_).bind fun _ =>
        ((ih (index + 1)).mono fun op hop => ?_).bind fun _ => Fallible.asks_pure _
      · exact ⟨0, m, rfl, hop⟩
      · obtain ⟨j, m', hm', hop⟩ := hop
        refine ⟨j + 1, m', by simpa using hm', ?_⟩
        rwa [show index + (j + 1) = index + 1 + j by omega]

theorem asks_verifyApplied (mutations : List StagedMutation) (createdIds : CreatedIds) :
    (verifyApplied mutations createdIds).Asks fun op =>
      ∃ j m, mutations[j]? = some m ∧ readOf createdIds j m = some op := by
  refine ((asks_verifyLoop createdIds 0 mutations).mono fun op hop => ?_).bind fun failures => ?_
  · simpa only [Nat.zero_add] using hop
  · split_ifs <;> trivial

/-- A read whose verdict is clean on the answers that are accepted, and on no failure. -/
theorem gives_verdict_none {kind id : String}
    {f : Except UnifiError (Option Json) → FetchM (Option String)} {P : Option Json → Prop}
    {t : List (Event FetchSig)}
    (hanswer : ∀ r tail, (f (.ok r)).Gives tail (.ok none) ↔ tail = [] ∧ P r)
    (hfailed : ∀ e tail, ¬ (f (.error e)).Gives tail (.ok none)) :
    ((FetchM.fetch kind id).attempt >>= f).Gives t (.ok none) ↔
      ∃ r, t = [readEvent ⟨kind, id⟩ r] ∧ P r := by
  rw [gives_attempt_fetch_bind]
  constructor
  · rintro ⟨ans, tail, rfl, h⟩
    cases ans with
    | error e => exact absurd h (hfailed e tail)
    | ok r =>
        obtain ⟨rfl, hr⟩ := (hanswer r tail).1 h
        exact ⟨r, rfl, hr⟩
  · rintro ⟨r, rfl, hr⟩
    exact ⟨.ok r, [], rfl, (hanswer r []).2 ⟨rfl, hr⟩⟩

/-- **Verification finds nothing wrong with a mutation** exactly when it makes no read
for it, or is content with the answer. -/
theorem gives_verifyMutation_none {createdIds : CreatedIds} {index : Nat} {m : StagedMutation}
    {t : List (Event FetchSig)} :
    (verifyMutation createdIds index m).Gives t (.ok none) ↔
      match readOf createdIds index m with
      | none => t = []
      | some op => ∃ r, t = [readEvent op r] ∧ Accepts m r := by
  cases m with
  | create kind body =>
      rw [verifyMutation, readOf]
      cases createdIds.lookup index with
      | none => simp
      | some id =>
          refine gives_verdict_none (fun r tail => ?_) fun e tail => by simp
          cases r with
          | none => simp [Accepts]
          | some v => simp [Accepts]
  | update kind id body =>
      rw [verifyMutation, readOf]
      refine gives_verdict_none (fun r tail => ?_) fun e tail => by simp
      cases r with
      | none => simp [Accepts]
      | some v =>
          simp only [Accepts]
          cases body.get? "name" with
          | none => simp
          | some x =>
              by_cases hname : v.get? "name" = some x
              · simp [hname]
              · simp [hname]
  | delete kind id =>
      rw [verifyMutation, readOf]
      refine gives_verdict_none (fun r tail => ?_) fun e tail => by simp
      cases r with
      | none => simp [Accepts]
      | some v => simp [Accepts]
  | restore backupId =>
      rw [verifyMutation, readOf, Fallible.gives_pure]
      simp

/-- The whole verification, mutation by mutation. -/
theorem gives_verifyLoop_nil {createdIds : CreatedIds} {index : Nat}
    {mutations : List StagedMutation} {t : List (Event FetchSig)} :
    (verifyLoop createdIds index mutations).Gives t (.ok []) ↔
      Confirms createdIds index mutations t := by
  induction mutations generalizing index t with
  | nil =>
      rw [verifyLoop, Fallible.gives_pure, Confirms]
      simp
  | cons m rest ih =>
      have hsplit : (verifyLoop createdIds index (m :: rest)).Gives t (.ok []) ↔
          ∃ t₁ t₂, t = t₁ ++ t₂ ∧ (verifyMutation createdIds index m).Gives t₁ (.ok none) ∧
            Confirms createdIds (index + 1) rest t₂ := by
        rw [verifyLoop, Fallible.gives_bind_ok]
        constructor
        · rintro ⟨t₁, t₂, failure, rfl, h₁, h₂⟩
          obtain ⟨t₃, t₄, failures, rfl, h₃, h₄⟩ := Fallible.gives_bind_ok.1 h₂
          obtain ⟨rfl, h⟩ := Fallible.gives_pure.1 h₄
          obtain ⟨hf, rfl⟩ := List.append_eq_nil_iff.1 (Except.ok.inj h).symm
          obtain rfl := Option.toList_eq_nil_iff.1 hf
          exact ⟨t₁, t₃, by simp, h₁, ih.1 h₃⟩
        · rintro ⟨t₁, t₂, rfl, h₁, h₂⟩
          exact ⟨t₁, t₂, none, rfl, h₁, Fallible.gives_bind_ok.2
            ⟨t₂, [], [], by simp, ih.2 h₂, Fallible.gives_pure.2 ⟨rfl, rfl⟩⟩⟩
      rw [hsplit, Confirms]
      simp only [gives_verifyMutation_none]
      cases readOf createdIds index m with
      | none => simp
      | some op =>
          constructor
          · rintro ⟨t₁, t₂, rfl, ⟨r, rfl, hr⟩, h₂⟩
            exact ⟨r, t₂, rfl, hr, h₂⟩
          · rintro ⟨r, tail, rfl, hr, h⟩
            exact ⟨[readEvent op r], tail, rfl, ⟨r, rfl, hr⟩, h⟩

theorem gives_verifyApplied_ok {mutations : List StagedMutation} {createdIds : CreatedIds}
    {t : List (Event FetchSig)} :
    (verifyApplied mutations createdIds).Gives t (.ok ()) ↔ Confirms createdIds 0 mutations t := by
  rw [verifyApplied, ← gives_verifyLoop_nil, Fallible.gives_bind_ok]
  constructor
  · rintro ⟨t₁, t₂, failures, rfl, h₁, h₂⟩
    cases failures with
    | nil =>
        obtain ⟨rfl, -⟩ := Fallible.gives_pure.1 h₂
        simpa using h₁
    | cons f fs => cases (Fallible.gives_throw.1 h₂).2
  · intro h
    exact ⟨t, [], [], by simp, h, Fallible.gives_pure.2 ⟨rfl, rfl⟩⟩

/-- In a verification that found nothing wrong, each read made was answered with
something verification is content with. -/
theorem Confirms.readBack {createdIds : CreatedIds} {index : Nat}
    {mutations : List StagedMutation} {t : List (Event FetchSig)}
    (h : Confirms createdIds index mutations t) {j : Nat} {m : StagedMutation}
    {op : FetchOp} (hm : mutations[j]? = some m) (hop : readOf createdIds (index + j) m = some op) :
    ∃ r, readBack createdIds index mutations t j = some (.ok r) ∧ Accepts m r ∧
      readEvent op r ∈ t := by
  induction mutations generalizing index t j with
  | nil => simp at hm
  | cons m' rest ih =>
      rw [Confirms] at h
      cases j with
      | zero =>
          obtain rfl : m' = m := by simpa using hm
          rw [Nat.add_zero] at hop
          rw [hop] at h
          obtain ⟨r, tail, rfl, hr, -⟩ := h
          exact ⟨r, by rw [UnifiMcp.readBack, hop]; rfl, hr, List.mem_cons_self⟩
      | succ j =>
          rw [List.getElem?_cons_succ] at hm
          rw [show index + (j + 1) = index + 1 + j by omega] at hop
          rw [UnifiMcp.readBack]
          cases hm' : readOf createdIds index m' with
          | none =>
              rw [hm'] at h
              exact ih h hm hop
          | some op' =>
              rw [hm'] at h
              obtain ⟨r', tail, rfl, -, h⟩ := h
              obtain ⟨r, hr, hacc, hmem⟩ := ih h hm hop
              exact ⟨r, hr, hacc, List.mem_cons_of_mem _ hmem⟩

/-- Answers that verification is content with are the read-backs of some verification. -/
theorem exists_confirms (createdIds : CreatedIds) (index : Nat)
    (mutations : List StagedMutation) (answers : Nat → Option Json)
    (h : ∀ j m op, mutations[j]? = some m → readOf createdIds (index + j) m = some op →
      Accepts m (answers (index + j))) :
    ∃ t, Confirms createdIds index mutations t ∧
      (∀ j m op, mutations[j]? = some m → readOf createdIds (index + j) m = some op →
        readBack createdIds index mutations t j = some (.ok (answers (index + j)))) ∧
      ∀ e ∈ t, ∃ j m, mutations[j]? = some m ∧
        readOf createdIds (index + j) m = some e.op ∧ e.answer = .ok (answers (index + j)) := by
  induction mutations generalizing index with
  | nil => exact ⟨[], rfl, by simp, by simp⟩
  | cons m rest ih =>
      obtain ⟨t, ht, hback, hmem⟩ := ih (index + 1) fun j m' op hm' hop => by
        rw [show index + 1 + j = index + (j + 1) by omega] at hop ⊢
        exact h (j + 1) m' op (by simpa using hm') hop
      have hshift : ∀ e ∈ t, ∃ j m', (m :: rest)[j]? = some m' ∧
          readOf createdIds (index + j) m' = some e.op ∧ e.answer = .ok (answers (index + j)) := by
        intro e he
        obtain ⟨j, m', hm', hop, hr⟩ := hmem e he
        rw [show index + 1 + j = index + (j + 1) by omega] at hop hr
        exact ⟨j + 1, m', by simpa using hm', hop, hr⟩
      cases hop : readOf createdIds index m with
      | none =>
          refine ⟨t, by rwa [Confirms, hop], ?_, hshift⟩
          intro j m' op hm' hop'
          cases j with
          | zero =>
              obtain rfl : m = m' := by simpa using hm'
              rw [Nat.add_zero, hop] at hop'
              cases hop'
          | succ j =>
              rw [show index + (j + 1) = index + 1 + j by omega] at hop' ⊢
              rw [UnifiMcp.readBack, hop]
              exact hback j m' op (by simpa using hm') hop'
      | some op =>
          refine ⟨readEvent op (answers index) :: t, ?_, ?_, ?_⟩
          · rw [Confirms, hop]
            exact ⟨answers index, t, rfl, h 0 m op rfl hop, ht⟩
          · intro j m' op' hm' hop'
            cases j with
            | zero => rw [UnifiMcp.readBack, hop]; rfl
            | succ j =>
                rw [show index + (j + 1) = index + 1 + j by omega] at hop' ⊢
                rw [UnifiMcp.readBack, hop]
                exact hback j m' op' (by simpa using hm') hop'
          · intro e he
            rcases List.mem_cons.1 he with rfl | he
            · exact ⟨0, m, rfl, hop, rfl⟩
            · exact hshift e he

end UnifiMcp
