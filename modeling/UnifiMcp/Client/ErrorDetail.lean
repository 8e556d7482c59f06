import UnifiMcp.Client.Runs
import UnifiMcp.Model.Detail

/-!
# What a request reports of an answer

An error status is reported with a part of the body, and this part is what `sanitizeDetail` makes
of it: whatever the controller answers, it is free of control characters
(`printable_of_gives_request`).
-/

namespace UnifiMcp

open Interaction

namespace UnifiClient

variable {c : UnifiClient} {method : Method} {surface : ApiSurface} {template : String}
  {params query : List (String × String)} {body : Option Json}

/-- The error of a surface that is not permitted is none of the controller's. -/
theorem ensureSurfacePermitted_ne_upstream {controller : Controller} {status : Nat}
    {detail : String} :
    ensureSurfacePermitted controller surface ≠ .error (.upstream status detail) := by
  cases surface with
  | supported => exact nofun
  | privateV1 | privateV2 | cloud =>
      unfold ensureSurfacePermitted
      dsimp only
      split_ifs
      all_goals exact nofun

/-- A reported status is that of an answer, with what is shown of its body. -/
theorem detail_of_gives_request {t : List (Event ClientSig)} {status : Nat} {detail : String}
    (h : (c.request method surface template params query body).Gives t
      (.error (.upstream status detail))) :
    ∃ text, 300 ≤ status ∧ detail = sanitizeDetail text := by
  generalize hr : Except.error (UnifiError.upstream status detail) = r at h
  cases requestRun_of_gives h with
  | notPermitted e hsurface =>
      cases hr
      exact absurd hsurface ensureSurfacePermitted_ne_upstream
  | notExpanded message _ => cases hr
  | transport path e => cases hr
  | rejected path response hstatus rest e report =>
      obtain ⟨-, hreport⟩ := gives_handleErrorResponse report
      rw [← hr] at hreport
      split_ifs at hreport with hprivate
      · obtain ⟨version, hversion⟩ := hreport
        cases hversion
      · cases hreport
        exact ⟨response.text, hstatus, rfl⟩
  | landed path response _ _ _ =>
      cases hjson : response.json with
      | ok v =>
          rw [hjson] at hr
          cases hr
      | error message =>
          rw [hjson] at hr
          cases hr

/-- **What is reported of an answer has no control character.** -/
theorem printable_of_gives_request {t : List (Event ClientSig)} {status : Nat} {detail : String}
    (h : (c.request method surface template params query body).Gives t
      (.error (.upstream status detail))) : ∀ ch ∈ detail.toList, isControl ch = false := by
  obtain ⟨text, -, rfl⟩ := detail_of_gives_request h
  exact printable_sanitizeDetail text

end UnifiClient

end UnifiMcp
