import UnifiMcp.Interaction.Refinement

/-!
# Change control

What a component is for that lets a plan through only after a second person has agreed to it.
Of each change it is known who staged which plan, how far it has come, which call claimed it and
what that call has sent for it since.  A call may stage a change that is not there, agree to one
that is planned, claim one that is approved, send what carrying out its plan asks for next, and
settle what it has claimed; and at any time a change may lapse (`Step`).

`Sanctioned` is what a history says of the changes it has come to, and `sent_of_history` what is
behind everything that is sent: somebody staged the plan, somebody else agreed to it after that,
then the one call that sends claimed it and did not settle it since, and what has been sent for
the change is the beginning of carrying that plan out.
-/

namespace ChangeControl

open Interaction

variable {Id Who Plan Req : Type}

/-- How far a change has come. -/
inductive Phase where
  | planned
  | approved
  | applying
  | lapsed
  | settled

/-- What is known of a change. -/
structure Change (Who Plan Req : Type) where
  owner : Who
  plan : Plan
  phase : Phase
  /-- The call that claimed it. -/
  claimant : Option Nat
  /-- What that call has sent for it. -/
  sent : List Req

/-- What a call does to a change. -/
inductive Act (Who Plan Req : Type) where
  | stage (owner : Who) (plan : Plan)
  | approve (who : Who) (plan : Plan)
  | waive (owner : Who) (plan : Plan)
  | claim
  | send (req : Req)
  | settle

/-- One step: nothing that matters, or what a call does to one change. -/
inductive Label (Id Who Plan Req : Type) where
  | idle
  | act (call : Nat) (id : Id) (act : Act Who Plan Req)

/-- A claimed change is not settled yet. -/
def Change.Unsettled (c : Change Who Plan Req) : Prop :=
  c.phase = .applying ∨ c.phase = .lapsed

/-- A change before and after a call does something to it.  `waives` says whether an owner may
waive the agreement, and `Carries plan sent` that carrying the plan out begins with sending
`sent`. -/
inductive Does (waives : Prop) (Carries : Plan → List Req → Prop) (call : Nat) :
    Act Who Plan Req → Option (Change Who Plan Req) → Option (Change Who Plan Req) → Prop where
  | stage (owner : Who) (plan : Plan) :
      Does waives Carries call (.stage owner plan) none
        (some ⟨owner, plan, .planned, none, []⟩)
  | approve (c : Change Who Plan Req) (who : Who) (planned : c.phase = .planned)
      (other : who ≠ c.owner) :
      Does waives Carries call (.approve who c.plan) (some c) (some { c with phase := .approved })
  | waive (c : Change Who Plan Req) (planned : c.phase = .planned) (allowed : waives) :
      Does waives Carries call (.waive c.owner c.plan) (some c)
        (some { c with phase := .approved })
  | claim (c : Change Who Plan Req) (approved : c.phase = .approved) :
      Does waives Carries call .claim (some c)
        (some { c with phase := .applying, claimant := some call })
  | send (c : Change Who Plan Req) (req : Req) (mine : c.claimant = some call)
      (unsettled : c.Unsettled) (carried : Carries c.plan (c.sent ++ [req])) :
      Does waives Carries call (.send req) (some c) (some { c with sent := c.sent ++ [req] })
  | settle (c : Change Who Plan Req) (mine : c.claimant = some call) (unsettled : c.Unsettled) :
      Does waives Carries call .settle (some c) (some { c with phase := .settled })

/-- A change stays as it is, or it lapses if it is not settled. -/
inductive Lapses : Option (Change Who Plan Req) → Option (Change Who Plan Req) → Prop where
  | stays (c : Option (Change Who Plan Req)) : Lapses c c
  | lapses (c : Change Who Plan Req) (unsettled : c.phase ≠ .settled) :
      Lapses (some c) (some { c with phase := .lapsed })

/-- One step of change control. -/
inductive Step (waives : Prop) (Carries : Plan → List Req → Prop)
    (s : Id → Option (Change Who Plan Req)) :
    Label Id Who Plan Req → (Id → Option (Change Who Plan Req)) → Prop where
  | idle (s' : Id → Option (Change Who Plan Req)) (others : ∀ id, Lapses (s id) (s' id)) :
      Step waives Carries s .idle s'
  | act (s' : Id → Option (Change Who Plan Req)) (call : Nat) (id : Id) (act : Act Who Plan Req)
      (does : Does waives Carries call act (s id) (s' id))
      (others : ∀ id', id' ≠ id → Lapses (s id') (s' id')) :
      Step waives Carries s (.act call id act) s'

/-- A history of change control, from no changes at all. -/
abbrev Run (waives : Prop) (Carries : Plan → List Req → Prop) :
    List (Label Id Who Plan Req) → (Id → Option (Change Who Plan Req)) → Prop :=
  History (Step waives Carries) fun _ => none

/-- The agreement to a plan: of somebody else, or a waiver where there are any. -/
inductive Agrees (waives : Prop) (id : Id) (owner : Who) (plan : Plan) :
    Label Id Who Plan Req → Prop where
  | approved (call : Nat) (who : Who) (other : who ≠ owner) :
      Agrees waives id owner plan (.act call id (.approve who plan))
  | waived (call : Nat) (allowed : waives) :
      Agrees waives id owner plan (.act call id (.waive owner plan))

/-- A step that does nothing to a change. -/
def Label.Elsewhere (l : Label Id Who Plan Req) (id : Id) : Prop :=
  ∀ call act, l ≠ .act call id act

variable {waives : Prop} {Carries : Plan → List Req → Prop}
  {labels : List (Label Id Who Plan Req)} {l : Label Id Who Plan Req} {id : Id}
  {c : Change Who Plan Req}

theorem Label.Elsewhere.mem (h : l.Elsewhere id) {call : Nat} {act : Act Who Plan Req}
    (hmem : Label.act call id act ∈ labels ++ [l]) : Label.act call id act ∈ labels := by
  rcases List.mem_append.1 hmem with hmem | hmem
  · exact hmem
  · exact absurd (List.mem_singleton.1 hmem).symm (h call act)

/-- What a call did to a change in the longer history, it did before or does now. -/
theorem mem_concat_act {call call' : Nat} {act act' : Act Who Plan Req}
    (hmem : Label.act call' id act' ∈ labels ++ [.act call id act]) :
    Label.act call' id act' ∈ labels ∨ call' = call ∧ act' = act := by
  rcases List.mem_append.1 hmem with hmem | hmem
  · exact .inl hmem
  · cases List.mem_singleton.1 hmem
    exact .inr ⟨rfl, rfl⟩

variable [DecidableEq Id]

/-- What a step sends for a change. -/
def Label.request (id : Id) : Label Id Who Plan Req → Option Req
  | .act _ id' (.send req) => if id' = id then some req else none
  | _ => none

/-- What has been sent for a change, in order. -/
def requests (id : Id) (labels : List (Label Id Who Plan Req)) : List Req :=
  labels.filterMap (Label.request id)

theorem requests_concat (id : Id) (labels : List (Label Id Who Plan Req))
    (l : Label Id Who Plan Req) :
    requests id (labels ++ [l]) = requests id labels ++ (l.request id).toList := by
  unfold requests
  rw [List.filterMap_append]
  cases hreq : l.request id with
  | none => rw [List.filterMap_cons_none hreq]; rfl
  | some req => rw [List.filterMap_cons_some hreq]; rfl

/-- A change before and after a step that neither claims it nor sends anything for it. -/
structure Kept (c c' : Change Who Plan Req) : Prop where
  plan : c'.plan = c.plan
  claimant : c'.claimant = c.claimant
  sent : c'.sent = c.sent

theorem Lapses.kept {before after : Option (Change Who Plan Req)} (h : Lapses before after)
    {c : Change Who Plan Req} (hc : before = some c) : ∃ c', after = some c' ∧ Kept c c' := by
  subst hc
  cases h with
  | stays => exact ⟨c, rfl, rfl, rfl, rfl⟩
  | lapses => exact ⟨_, rfl, rfl, rfl, rfl⟩

theorem Does.kept {waives : Prop} {Carries : Plan → List Req → Prop} {call : Nat}
    {act : Act Who Plan Req} {before after : Option (Change Who Plan Req)}
    (h : Does waives Carries call act before after) {c : Change Who Plan Req}
    (hc : before = some c) (hclaim : act ≠ .claim) (hsend : ∀ req, act ≠ .send req) :
    ∃ c', after = some c' ∧ Kept c c' := by
  cases h with
  | stage => cases hc
  | claim => exact absurd rfl hclaim
  | send _ req => exact absurd rfl (hsend req)
  | approve | waive | settle =>
      cases hc
      exact ⟨_, rfl, rfl, rfl, rfl⟩

/-- Only an approved change can be claimed. -/
theorem Does.approved {waives : Prop} {Carries : Plan → List Req → Prop} {call : Nat}
    {before after : Option (Change Who Plan Req)} (h : Does waives Carries call .claim before after)
    {c : Change Who Plan Req} (hc : before = some c) :
    c.phase = .approved ∧ after = some { c with phase := .applying, claimant := some call } := by
  cases h with
  | claim _ approved =>
      cases hc
      exact ⟨approved, rfl⟩

/-! ## What a history says -/

/-- What a history says of a change it has come to. -/
structure Sanctioned (waives : Prop) (Carries : Plan → List Req → Prop)
    (labels : List (Label Id Who Plan Req)) (id : Id) (c : Change Who Plan Req) : Prop where
  staged : ∃ i, [Label.act i id (.stage c.owner c.plan)].Sublist labels
  agreed : c.phase = .approved → ∃ i l, Agrees waives id c.owner c.plan l ∧
    [Label.act i id (.stage c.owner c.plan), l].Sublist labels
  claimed : ∀ call, c.claimant = some call → ∃ i l, Agrees waives id c.owner c.plan l ∧
    [Label.act i id (.stage c.owner c.plan), l, .act call id .claim].Sublist labels
  /-- Before it is claimed nothing has been sent for it. -/
  unclaimed : c.phase = .planned ∨ c.phase = .approved → c.claimant = none
  claims : ∀ call, Label.act call id .claim ∈ labels → c.claimant = some call
  sends : ∀ call req, Label.act call id (.send req) ∈ labels → c.claimant = some call
  settles : ∀ call, Label.act call id .settle ∈ labels → c.phase = .settled
  settled : c.phase = .settled →
    ∃ call, c.claimant = some call ∧ Label.act call id .settle ∈ labels
  sent : c.sent = requests id labels
  carried : c.sent = [] ∨ Carries c.plan c.sent

/-- What a history says of the changes it has come to, and of those that are not there. -/
structure Accounted (waives : Prop) (Carries : Plan → List Req → Prop)
    (labels : List (Label Id Who Plan Req)) (s : Id → Option (Change Who Plan Req)) : Prop where
  sanctioned : ∀ id c, s id = some c → Sanctioned waives Carries labels id c
  untouched : ∀ id, s id = none → ∀ call act, Label.act call id act ∉ labels

theorem Label.Elsewhere.request (h : l.Elsewhere id) : l.request id = none := by
  cases l with
  | idle => rfl
  | act call id' act =>
      have hother : id' ≠ id := by
        rintro rfl
        exact h call act rfl
      cases act with
      | send req => exact if_neg hother
      | _ => rfl

/-- What is done elsewhere changes nothing of what is known of a change but that it may lapse. -/
theorem Sanctioned.elsewhere (h : Sanctioned waives Carries labels id c) (hl : l.Elsewhere id)
    {phase : Phase} (hphase : phase = c.phase ∨ phase = .lapsed ∧ c.phase ≠ .settled) :
    Sanctioned waives Carries (labels ++ [l]) id { c with phase := phase } where
  staged := by
    obtain ⟨i, hsub⟩ := h.staged
    exact ⟨i, hsub.trans (List.sublist_append_left _ _)⟩
  agreed := by
    intro happroved
    have hbefore : c.phase = .approved := by
      rcases hphase with rfl | ⟨rfl, -⟩
      · exact happroved
      · cases happroved
    obtain ⟨i, l', hagrees, hsub⟩ := h.agreed hbefore
    exact ⟨i, l', hagrees, hsub.trans (List.sublist_append_left _ _)⟩
  claimed := by
    intro call hcall
    obtain ⟨i, l', hagrees, hsub⟩ := h.claimed call hcall
    exact ⟨i, l', hagrees, hsub.trans (List.sublist_append_left _ _)⟩
  unclaimed := by
    intro hopen
    rcases hphase with rfl | ⟨rfl, -⟩
    · exact h.unclaimed hopen
    · rcases hopen with hopen | hopen <;> cases hopen
  claims call hmem := h.claims call (hl.mem hmem)
  sends call req hmem := h.sends call req (hl.mem hmem)
  settles := by
    intro call hmem
    have hsettled := h.settles call (hl.mem hmem)
    rcases hphase with rfl | ⟨-, hnot⟩
    · exact hsettled
    · exact absurd hsettled hnot
  settled := by
    intro hsettled
    rcases hphase with rfl | ⟨rfl, -⟩
    · obtain ⟨call, hcall, hmem⟩ := h.settled hsettled
      exact ⟨call, hcall, List.mem_append_left _ hmem⟩
    · cases hsettled
  sent := by
    rw [requests_concat, hl.request]
    exact h.sent.trans (List.append_nil _).symm
  carried := h.carried

/-- Nothing is sent for a change that is not claimed. -/
theorem Sanctioned.nothing_sent (h : Sanctioned waives Carries labels id c)
    (hnone : c.claimant = none) : c.sent = [] := by
  rw [h.sent]
  refine List.filterMap_eq_nil_iff.2 fun l hl => ?_
  cases l with
  | idle => rfl
  | act call id' act =>
      cases act with
      | send req =>
          refine if_neg fun hid => ?_
          subst hid
          exact nomatch hnone.symm.trans (h.sends call req hl)
      | _ => rfl

section Does

variable {call : Nat} {act : Act Who Plan Req} {c' : Change Who Plan Req}

/-- A change that is staged has not been touched before. -/
theorem Sanctioned.staged_now {owner : Who} {plan : Plan}
    (hnone : ∀ call act, Label.act call id act ∉ labels) :
    Sanctioned waives Carries (labels ++ [.act call id (.stage owner plan)]) id
      ⟨owner, plan, .planned, none, []⟩ := by
  have hnot : ∀ {call' act'}, Label.act call' id act' ∈
      labels ++ [Label.act call id (.stage owner plan)] → act' = .stage owner plan := by
    intro call' act' hmem
    rcases mem_concat_act hmem with hmem | ⟨-, hact⟩
    · exact absurd hmem (hnone call' act')
    · exact hact
  exact {
    staged := ⟨call, List.sublist_append_right _ _⟩
    agreed := nofun
    claimed := nofun
    unclaimed := fun _ => rfl
    claims := fun call' hmem => by cases hnot hmem
    sends := fun call' req hmem => by cases hnot hmem
    settles := fun call' hmem => by cases hnot hmem
    settled := nofun
    sent := by
      have hempty : requests id labels = [] := by
        refine List.filterMap_eq_nil_iff.2 fun l hl => ?_
        refine Label.Elsewhere.request fun call' act' hact => ?_
        exact hnone call' act' (hact ▸ hl)
      rw [requests_concat, hempty]
      rfl
    carried := .inl rfl }

/-- A planned change that is agreed to. -/
theorem Sanctioned.agreed_now (h : Sanctioned waives Carries labels id c)
    (planned : c.phase = .planned)
    (hagrees : Agrees waives id c.owner c.plan (.act call id act)) :
    Sanctioned waives Carries (labels ++ [.act call id act]) id { c with phase := .approved } := by
  have hkept : act ≠ .claim ∧ (∀ req, act ≠ .send req) ∧ act ≠ .settle := by
    cases hagrees <;> exact ⟨nofun, nofun, nofun⟩
  have hquiet : (Label.act call id act).request id = none := by
    cases hagrees <;> rfl
  have hnone := h.unclaimed (.inl planned)
  exact {
    staged := by
      obtain ⟨i, hsub⟩ := h.staged
      exact ⟨i, hsub.trans (List.sublist_append_left _ _)⟩
    agreed := by
      intro _
      obtain ⟨i, hsub⟩ := h.staged
      exact ⟨i, _, hagrees, hsub.append (List.Sublist.refl [_])⟩
    claimed := fun call' hcall => nomatch hnone.symm.trans hcall
    unclaimed := fun _ => hnone
    claims := by
      intro call' hmem
      rcases mem_concat_act hmem with hmem | ⟨-, hact⟩
      · exact h.claims call' hmem
      · exact absurd hact.symm hkept.1
    sends := by
      intro call' req hmem
      rcases mem_concat_act hmem with hmem | ⟨-, hact⟩
      · exact h.sends call' req hmem
      · exact absurd hact.symm (hkept.2.1 req)
    settles := by
      intro call' hmem
      rcases mem_concat_act hmem with hmem | ⟨-, hact⟩
      · exact absurd (planned.symm.trans (h.settles call' hmem)) nofun
      · exact absurd hact.symm hkept.2.2
    settled := nofun
    sent := by
      rw [requests_concat, hquiet]
      exact h.sent.trans (List.append_nil _).symm
    carried := h.carried }

/-- An approved change that is claimed. -/
theorem Sanctioned.claimed_now (h : Sanctioned waives Carries labels id c)
    (approved : c.phase = .approved) :
    Sanctioned waives Carries (labels ++ [.act call id .claim]) id
      { c with phase := .applying, claimant := some call } where
  staged := by
    obtain ⟨i, hsub⟩ := h.staged
    exact ⟨i, hsub.trans (List.sublist_append_left _ _)⟩
  agreed := nofun
  claimed := by
    intro call' hcall
    cases hcall
    obtain ⟨i, l', hagrees, hsub⟩ := h.agreed approved
    exact ⟨i, l', hagrees, hsub.append (List.Sublist.refl [_])⟩
  unclaimed := by
    intro hopen
    rcases hopen with hopen | hopen <;> cases hopen
  claims := by
    intro call' hmem
    rcases mem_concat_act hmem with hmem | ⟨rfl, -⟩
    · -- It was not claimed before.
      exact nomatch (h.unclaimed (.inr approved)).symm.trans (h.claims call' hmem)
    · rfl
  sends := by
    intro call' req hmem
    rcases mem_concat_act hmem with hmem | ⟨-, hact⟩
    · exact nomatch (h.unclaimed (.inr approved)).symm.trans (h.sends call' req hmem)
    · cases hact
  settles := by
    intro call' hmem
    rcases mem_concat_act hmem with hmem | ⟨-, hact⟩
    · exact absurd (approved.symm.trans (h.settles call' hmem)) nofun
    · cases hact
  settled := nofun
  sent := by
    rw [requests_concat]
    exact h.sent.trans (List.append_nil _).symm
  carried := h.carried

/-- A claimed change that something is sent for. -/
theorem Sanctioned.sent_now (h : Sanctioned waives Carries labels id c) {req : Req}
    (mine : c.claimant = some call) (unsettled : c.Unsettled)
    (carried : Carries c.plan (c.sent ++ [req])) :
    Sanctioned waives Carries (labels ++ [.act call id (.send req)]) id
      { c with sent := c.sent ++ [req] } where
  staged := by
    obtain ⟨i, hsub⟩ := h.staged
    exact ⟨i, hsub.trans (List.sublist_append_left _ _)⟩
  agreed := by
    intro happroved
    rcases unsettled with hphase | hphase <;> exact nomatch hphase.symm.trans happroved
  claimed := by
    intro call' hcall
    obtain ⟨i, l', hagrees, hsub⟩ := h.claimed call' hcall
    exact ⟨i, l', hagrees, hsub.trans (List.sublist_append_left _ _)⟩
  unclaimed := h.unclaimed
  claims := by
    intro call' hmem
    rcases mem_concat_act hmem with hmem | ⟨-, hact⟩
    · exact h.claims call' hmem
    · cases hact
  sends := by
    intro call' req' hmem
    rcases mem_concat_act hmem with hmem | ⟨rfl, -⟩
    · exact h.sends call' req' hmem
    · exact mine
  settles := by
    intro call' hmem
    rcases mem_concat_act hmem with hmem | ⟨-, hact⟩
    · exact h.settles call' hmem
    · cases hact
  settled := by
    intro hsettled
    rcases unsettled with hphase | hphase <;> exact nomatch hphase.symm.trans hsettled
  sent := by
    have hreq : (Label.act call id (.send req) : Label Id Who Plan Req).request id = some req :=
      if_pos rfl
    rw [requests_concat, hreq]
    exact congrArg (· ++ [req]) h.sent
  carried := .inr carried

/-- A claimed change that is settled. -/
theorem Sanctioned.settled_now (h : Sanctioned waives Carries labels id c)
    (mine : c.claimant = some call) :
    Sanctioned waives Carries (labels ++ [.act call id .settle]) id
      { c with phase := .settled } where
  staged := by
    obtain ⟨i, hsub⟩ := h.staged
    exact ⟨i, hsub.trans (List.sublist_append_left _ _)⟩
  agreed := nofun
  claimed := by
    intro call' hcall
    obtain ⟨i, l', hagrees, hsub⟩ := h.claimed call' hcall
    exact ⟨i, l', hagrees, hsub.trans (List.sublist_append_left _ _)⟩
  unclaimed := by
    intro hopen
    rcases hopen with hopen | hopen <;> cases hopen
  claims := by
    intro call' hmem
    rcases mem_concat_act hmem with hmem | ⟨-, hact⟩
    · exact h.claims call' hmem
    · cases hact
  sends := by
    intro call' req' hmem
    rcases mem_concat_act hmem with hmem | ⟨-, hact⟩
    · exact h.sends call' req' hmem
    · cases hact
  settles _ _ := rfl
  settled _ := ⟨call, mine, List.mem_append_right _ (List.mem_singleton.2 rfl)⟩
  sent := by
    rw [requests_concat]
    exact h.sent.trans (List.append_nil _).symm
  carried := h.carried

end Does

/-- **One step keeps the account.** -/
theorem Accounted.step {s s' : Id → Option (Change Who Plan Req)}
    (h : Accounted waives Carries labels s) (hstep : Step waives Carries s l s') :
    Accounted waives Carries (labels ++ [l]) s' := by
  -- A change that nothing is done to.
  have helsewhere : ∀ {id}, l.Elsewhere id → Lapses (s id) (s' id) →
      (∀ c, s' id = some c → Sanctioned waives Carries (labels ++ [l]) id c) ∧
        (s' id = none → ∀ call act, Label.act call id act ∉ labels ++ [l]) := by
    intro id hl hlapses
    generalize hbefore : s id = before at hlapses
    generalize hafter : s' id = after at hlapses
    cases hlapses with
    | stays =>
        refine ⟨?_, fun hnone call act hmem => ?_⟩
        · rintro c rfl
          exact (h.sanctioned id c hbefore).elsewhere hl (.inl rfl)
        · exact h.untouched id (hbefore.trans hnone) call act (hl.mem hmem)
    | lapses c hunsettled =>
        refine ⟨?_, nofun⟩
        rintro c' ⟨⟩
        exact (h.sanctioned id c hbefore).elsewhere hl (.inr ⟨rfl, hunsettled⟩)
  cases hstep with
  | idle _ others =>
      have hnowhere : ∀ id, (Label.idle : Label Id Who Plan Req).Elsewhere id :=
        fun id call act => nofun
      exact ⟨fun id => (helsewhere (hnowhere id) (others id)).1,
        fun id => (helsewhere (hnowhere id) (others id)).2⟩
  | act _ call id act does others =>
      have hother : ∀ {id'}, id' ≠ id → (Label.act call id act).Elsewhere id' := by
        intro id' hne call' act' hact
        injection hact with _ hid
        exact hne hid.symm
      have hhere : ∃ c', s' id = some c' ∧
          Sanctioned waives Carries (labels ++ [.act call id act]) id c' := by
        generalize hbefore : s id = before at does
        generalize hafter : s' id = after at does
        cases does with
        | stage owner plan => exact ⟨_, rfl, .staged_now (h.untouched id hbefore)⟩
        | approve c who planned other =>
            exact ⟨_, rfl, (h.sanctioned id c hbefore).agreed_now planned
              (.approved call who other)⟩
        | waive c planned allowed =>
            exact ⟨_, rfl, (h.sanctioned id c hbefore).agreed_now planned (.waived call allowed)⟩
        | claim c approved => exact ⟨_, rfl, (h.sanctioned id c hbefore).claimed_now approved⟩
        | send c req mine unsettled carried =>
            exact ⟨_, rfl, (h.sanctioned id c hbefore).sent_now mine unsettled carried⟩
        | settle c mine unsettled =>
            exact ⟨_, rfl, (h.sanctioned id c hbefore).settled_now mine⟩
      obtain ⟨c', hc', hsanctioned⟩ := hhere
      constructor
      · intro id' c hc
        by_cases hid : id' = id
        · subst hid
          cases hc'.symm.trans hc
          exact hsanctioned
        · exact (helsewhere (hother hid) (others id' hid)).1 c hc
      · intro id' hnone
        by_cases hid : id' = id
        · subst hid
          cases hc'.symm.trans hnone
        · exact (helsewhere (hother hid) (others id' hid)).2 hnone

/-- Every history accounts for what it has come to. -/
theorem accounted_of_run {s : Id → Option (Change Who Plan Req)}
    (h : Run waives Carries labels s) : Accounted waives Carries labels s := by
  induction h with
  | init => exact ⟨nofun, fun _ _ _ _ => List.not_mem_nil⟩
  | step _ last ih => exact ih.step last

/-- **What is behind everything that is sent.**  Whatever a call sends for a change, the change
was staged before, its plan was agreed to after that by somebody else, or waived where that is
allowed, and after that the call claimed it; what has been sent for it since is the beginning of
carrying that plan out; nobody else has sent anything for it, and it has not been settled. -/
theorem sent_of_run {s : Id → Option (Change Who Plan Req)}
    {before after : List (Label Id Who Plan Req)} {call : Nat} {req : Req}
    (h : Run waives Carries (before ++ .act call id (.send req) :: after) s) :
    ∃ owner plan i l, Agrees waives id owner plan l ∧
      [Label.act i id (.stage owner plan), l, .act call id .claim].Sublist before ∧
      Carries plan (requests id before ++ [req]) ∧
      (∀ call' req', Label.act call' id (.send req') ∈ before → call' = call) ∧
      ∀ call', Label.act call' id .settle ∉ before := by
  obtain ⟨s₀, s₁, hbefore, hstep⟩ := h.split
  have haccounted := accounted_of_run hbefore
  cases hstep with
  | act _ _ _ _ does others =>
      generalize hs₀ : s₀ id = c₀ at does
      generalize s₁ id = c₁ at does
      cases does with
      | send c req mine unsettled carried =>
          have hc := haccounted.sanctioned id c hs₀
          obtain ⟨i, l, hagrees, hsub⟩ := hc.claimed call mine
          refine ⟨c.owner, c.plan, i, l, hagrees, hsub, hc.sent ▸ carried, ?_, ?_⟩
          · intro call' req' hmem
            exact Option.some.inj ((hc.sends call' req' hmem).symm.trans mine)
          · intro call' hmem
            have hsettled := hc.settles call' hmem
            rcases unsettled with hphase | hphase <;> exact nomatch hphase.symm.trans hsettled

end ChangeControl
