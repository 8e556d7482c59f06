import UnifiMcp.Client.Runs

/-!
# Answers that tell the truth

`ReadsFrom read e` says that if the event `e` is a read of one resource and was answered
with items, the first item is what `read` holds for the kind, site and id asked for.
`ReportsAbsent read e` says the same of an answer 404.  Under these the client's reads
give what the controller holds.
-/

namespace UnifiMcp

open Interaction

/-- What a controller holds, by kind, site and id. -/
abbrev Holdings := ResourceKind → String → String → Option Json

/-- `e` is the read of one resource, with this answer. -/
def IsRead (k : ResourceKind) (site id : String) (answer : Except HttpError Response)
    (e : Event ClientSig) : Prop :=
  ∃ request : Request, e = sendEvent request answer ∧ request.method = .get ∧
    request.template = k.singleResourceTemplate ∧
    request.params = [("site", site), ("id", id)]

/-- A read that was answered with items was answered with what is held. -/
def ReadsFrom (read : Holdings) (e : Event ClientSig) : Prop :=
  ∀ k site id response raw items, IsRead k site id (.ok response) e →
    response.status < 300 → response.json = .ok raw →
    fetchedItems k.surface raw = .ok items → items.head? = read k site id

/-- A read that was answered 404 was of something that is not held. -/
def ReportsAbsent (read : Holdings) (e : Event ClientSig) : Prop :=
  ∀ k site id response, IsRead k site id (.ok response) e → response.status = 404 →
    read k site id = none

namespace UnifiClient

variable {c : UnifiClient} {read : Holdings} {t : List (Event ClientSig)}

/-- What a read of one resource found is what is held. -/
theorem getOne_ok {k : ResourceKind} {site id : String} {raw : Json} {items : List Json}
    (h : (getOne c k site id).Gives t (.ok raw)) (hread : ∀ e ∈ t, ReadsFrom read e)
    (hitems : fetchedItems k.surface raw = .ok items) : items.head? = read k site id := by
  obtain ⟨path, response, -, -, hstatus, hjson, rfl⟩ := gives_request_ok h
  exact hread _ List.mem_cons_self k site id response raw items
    ⟨_, rfl, rfl, rfl, rfl⟩ hstatus hjson hitems

/-- A refused surface is not taken for a missing resource. -/
theorem not_isAbsent_of_notPermitted {controller : Controller} {surface : ApiSurface}
    {e : UnifiError} (h : ensureSurfacePermitted controller surface = .error e) :
    ¬ IsAbsent e := by
  unfold ensureSurfacePermitted at h
  split at h
  · cases h
  · split_ifs at h
    cases h
    exact id
  · split_ifs at h
    cases h
    exact id
  · split_ifs at h <;> cases h <;> exact id

/-- A read that failed as if the resource were missing is of a missing one. -/
theorem getOne_absent {k : ResourceKind} {site id : String} {e : UnifiError}
    (h : (getOne c k site id).Gives t (.error e)) (habsent : IsAbsent e)
    (hread : ∀ e ∈ t, ReportsAbsent read e) : read k site id = none := by
  generalize hr : Except.error e = r at h
  cases requestRun_of_gives h with
  | notPermitted e' hp =>
      cases hr
      exact absurd habsent (not_isAbsent_of_notPermitted hp)
  | notExpanded message hx =>
      cases hr
      cases habsent
  | transport path e' =>
      cases hr
      cases habsent
  | rejected path response hstatus rest e' report =>
      cases hr
      have h404 : response.status = 404 := by
        have hreport := (gives_handleErrorResponse report).2
        split_ifs at hreport with hs
        · exact hs.1
        · cases hreport
          exact habsent
      exact hread _ List.mem_cons_self k site id response ⟨_, rfl, rfl, rfl, rfl⟩ h404
  | landed path response hp hx hstatus =>
      cases hj : response.json with
      | ok v =>
          rw [hj] at hr
          cases hr
      | error message =>
          rw [hj] at hr
          cases hr
          cases habsent

/-- **What `fetch_resource` gives is what is held**, at the site it took. -/
theorem fetchResource_ok {kind id : String} {r : Option Json}
    (h : (c.fetchResource kind id).Gives t (.ok r)) (hread : ∀ e ∈ t, ReadsFrom read e) :
    ∃ (k : ResourceKind) (t₁ t₂ : List (Event ClientSig)) (site : String), k.name = kind ∧
      t = t₁ ++ t₂ ∧ (c.defaultSiteFor k.surface).Gives t₁ (.ok site) ∧
      ((∀ e ∈ t, ReportsAbsent read e) ∨ r.isSome → r = read k site id) := by
  obtain ⟨k, t₁, t₂, site, hk, rfl, hsite, hfound | hmissing⟩ := gives_fetchResource_ok h
  · obtain ⟨raw, items, hget, hitems, rfl⟩ := hfound
    refine ⟨k, t₁, t₂, site, hk, rfl, hsite, fun _ => ?_⟩
    exact getOne_ok hget (fun e he => hread e (List.mem_append_right _ he)) hitems
  · obtain ⟨e, hget, habsent, rfl⟩ := hmissing
    refine ⟨k, t₁, t₂, site, hk, rfl, hsite, ?_⟩
    rintro (hreport | hsome)
    · exact (getOne_absent hget habsent fun e he =>
        hreport e (List.mem_append_right _ he)).symm
    · cases hsome

end UnifiClient

end UnifiMcp
