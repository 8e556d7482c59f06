import UnifiMcp.Collections.Cursor
import UnifiMcp.Server.JsonResult
import UnifiMcp.Tools.Read
import Mathlib.Algebra.Order.BigOperators.Group.List

/-!
# Paging through an answer that may be shortened

A caller reads a paged list from offset 0 on and continues at `next_offset` when an answer
has one, else past the page.  An answer gets a `next_offset` when it was shortened, whichever
of its arrays lost items.  So the caller may be sent past items that were not shown, or
nowhere; `pagesThrough_iff` says at which offsets that happens.
-/

namespace UnifiMcp

open Collections

/-! ## Results with a page -/

/-- What a tool pages: what it gathered, before the page is cut. -/
inductive PagedResult where
  | topology (edges devices networks : List Json) (omitted : List String)
  | siteHealth (devices : List Json) (health : Json) (omitted : List String)
  | trafficFlow (clients topApplications : List Json) (omitted : List String)
  | queryStats (subject : StatsSubject) (data : List Json)

namespace PagedResult

/-- The list that is paged. -/
def field : PagedResult → String
  | .topology _ _ _ _ | .siteHealth _ _ _ => "devices"
  | .trafficFlow _ _ _ => "clients"
  | .queryStats _ _ => "data"

/-- The answer at an offset, before it is rendered. -/
def page (tools : Toolkit) (offset : Option UInt64) (limit : Option UInt32) :
    PagedResult → Except UnifiError Json
  | .topology edges devices networks omitted =>
      (TopologyReport.ofPage tools.page edges devices networks omitted offset limit).map
        TopologyReport.toJson
  | .siteHealth devices health omitted =>
      (SiteHealthReport.ofPage tools.page devices health omitted offset limit).map
        SiteHealthReport.toJson
  | .trafficFlow clients topApplications omitted =>
      (TrafficFlowReport.ofPage tools.page clients topApplications omitted offset limit).map
        TrafficFlowReport.toJson
  | .queryStats subject data => statsPage tools.toRedactor tools.page subject data offset limit

/-- The items of the paged list as they are answered.  Statistics are narrowed on the way. -/
def Lists (tools : Toolkit) (items : List Json) : PagedResult → Prop
  | .topology _ devices _ _ | .siteHealth devices _ _ => items = devices
  | .trafficFlow clients _ _ => items = clients
  | .queryStats subject data => projectStats tools.toRedactor subject data = .ok (.arr items)

end PagedResult

/-- The page size a caller gets. -/
def pageSize (limit : Option UInt32) : Nat := (limit.getD defaultPageSize).toNat

/-- `mecmcp_openapi::page` grants the windows of a list of `total` items at this limit: the
limit is not zero, and neither it nor an offset in the list is past the maximum. -/
structure Grants (page : PageFn) (limit : Option UInt32) (total : Nat) : Prop where
  positive : 0 < pageSize limit
  window : ∀ offset < total, ∃ w,
    page (UInt64.ofNat offset) (limit.getD defaultPageSize).toUInt64 = .ok w ∧
      w.start.toNat = offset ∧ w.size = limit.getD defaultPageSize

/-! ## What a caller does -/

/-- Where a caller goes on after an answer. -/
def continueAt (limit : Option UInt32) (offset : Nat) (answer : Json) : Nat :=
  match (answer.get? "next_offset").bind Json.asU64? with
  | some next => next.toNat
  | none => offset + pageSize limit

section Walk

variable (tools : Toolkit) (refuses : Json → Bool) (r : PagedResult) (limit : Option UInt32)

/-- What a caller is answered at an offset. -/
def answerAt (offset : Nat) : Option Json :=
  match r.page tools (some (UInt64.ofNat offset)) limit with
  | .ok report => jsonToolResult tools.number refuses report
  | .error _ => none

/-- Where it goes on from there. -/
def nextAt (offset : Nat) : Option Nat :=
  (answerAt tools refuses r limit offset).map (continueAt limit offset)

/-- The items it is shown. -/
def shownAt (offset : Nat) : List Json :=
  (((answerAt tools refuses r limit offset).bind fun answer => answer.get? r.field).bind
    Json.asArray?).getD []

/-- A caller that reads the list from offset 0 on is led on as long as items remain, and is
shown every item of it. -/
structure PagesThrough (items : List Json) : Prop where
  advances : ∀ o, Visits items.length (nextAt tools refuses r limit) o →
    ∃ o', nextAt tools refuses r limit o = some o' ∧ o < o'
  shows : ∀ i (h : i < items.length), ∃ o, Visits items.length (nextAt tools refuses r limit) o ∧
    o ≤ i ∧ (shownAt tools refuses r limit o)[i - o]? = some items[i]

/-- An answer within the budget, or one that is brought within it by cutting its longest array
to one item at least; and this array is the paged list, or is cut to no more items than a page
has, unless this is the last page. -/
def LeadsOn (number : Number → String) (budget : Nat) (field : String) (size rest : Nat)
    (fields : List (String × Json)) : Prop :=
  renderedLen number (.obj fields) ≤ budget ∨
    ∀ key items, largestArray fields = some (key, items) →
      cutFits number budget key items (without key fields) 1 = true ∧
        (key = field ∨ rest ≤ size ∨ items.length ≤ size ∨
          cutFits number budget key items (without key fields) (size + 1) = false)

end Walk

/-! ## The page of an answer -/

/-- An answer that pages a list: where it is in it, and that nothing but the shortening writes
the marker and the cursor. -/
structure IsPage (field : String) (window : List Json) (offset : Nat)
    (fields : List (String × Json)) : Prop where
  ascending : Ascending fields
  window : findEntry field fields = some (.arr window)
  offset : ∃ n, findEntry "offset" fields = some (.num (.posInt n)) ∧ n.toNat = offset
  noCursor : findEntry "next_offset" fields = none
  free : field ∉ ["next_offset", "offset", "partial", "truncation"]

section Page

variable {tools : Toolkit} {refuses : Json → Bool} {r : PagedResult} {limit : Option UInt32}
  {items window : List Json} {field key : String} {offset n : Nat} {fields : List (String × Json)}

theorem paginate_eq {page : PageFn} {total : Nat} (hpage : Grants page limit total)
    (ho : offset < total) (list : List Json) : ∃ n : UInt64, n.toNat = offset ∧
      paginate page list (some (UInt64.ofNat offset)) limit =
        .ok ⟨(list.drop offset).take (pageSize limit), n, limit.getD defaultPageSize,
          list.length⟩ := by
  obtain ⟨w, hw, hstart, hsize⟩ := hpage.window offset ho
  refine ⟨w.start.toUInt64, hstart, ?_⟩
  unfold paginate
  rw [Option.getD_some, hw, ← hsize, pageSize, ← hsize, ← hstart]
  rfl

theorem PagedResult.field_free (r : PagedResult) :
    r.field ∉ ["next_offset", "offset", "partial", "truncation"] := by
  cases r with
  | topology _ _ _ _ | siteHealth _ _ _ =>
      exact (by decide : "devices" ∉ ["next_offset", "offset", "partial", "truncation"])
  | trafficFlow _ _ _ =>
      exact (by decide : "clients" ∉ ["next_offset", "offset", "partial", "truncation"])
  | queryStats _ _ =>
      exact (by decide : "data" ∉ ["next_offset", "offset", "partial", "truncation"])

/-- The answers of the four tools page their list. -/
theorem PagedResult.isPage (hredact : tools.toRedactor.Itemwise) (hitems : r.Lists tools items)
    (hpage : Grants tools.page limit items.length) (ho : offset < items.length) :
    ∃ fields, r.page tools (some (UInt64.ofNat offset)) limit = .ok (.obj fields) ∧
      IsPage r.field ((items.drop offset).take (pageSize limit)) offset fields := by
  have hfree := r.field_free
  cases r with
  | topology edges devices networks omitted =>
      obtain rfl : items = devices := hitems
      obtain ⟨n, hn, hpaged⟩ := paginate_eq hpage ho items
      have hanswer : PagedResult.page tools (some (UInt64.ofNat offset)) limit
          (.topology edges items networks omitted) = .ok (TopologyReport.toJson
            ⟨edges, (items.drop offset).take (pageSize limit), networks, !omitted.isEmpty, omitted,
              n, limit.getD defaultPageSize, items.length⟩) := by
        rw [PagedResult.page, TopologyReport.ofPage, hpaged]
        rfl
      have hkeys : ["devices", "edges", "limit", "networks", "offset", "omitted", "partial",
        "total"].Pairwise (· < ·) := by decide
      exact ⟨_, hanswer, List.pairwise_map.1 hkeys, rfl, ⟨n, rfl, hn⟩, rfl, hfree⟩
  | siteHealth devices health omitted =>
      obtain rfl : items = devices := hitems
      obtain ⟨n, hn, hpaged⟩ := paginate_eq hpage ho items
      have hanswer : PagedResult.page tools (some (UInt64.ofNat offset)) limit
          (.siteHealth items health omitted) = .ok (SiteHealthReport.toJson
            ⟨(items.drop offset).take (pageSize limit), health, !omitted.isEmpty, omitted,
              n, limit.getD defaultPageSize, items.length⟩) := by
        rw [PagedResult.page, SiteHealthReport.ofPage, hpaged]
        rfl
      have hkeys : ["devices", "health", "limit", "offset", "omitted", "partial",
        "total"].Pairwise (· < ·) := by decide
      exact ⟨_, hanswer, List.pairwise_map.1 hkeys, rfl, ⟨n, rfl, hn⟩, rfl, hfree⟩
  | trafficFlow clients topApplications omitted =>
      obtain rfl : items = clients := hitems
      obtain ⟨n, hn, hpaged⟩ := paginate_eq hpage ho items
      have hanswer : PagedResult.page tools (some (UInt64.ofNat offset)) limit
          (.trafficFlow items topApplications omitted) = .ok (TrafficFlowReport.toJson
            ⟨(items.drop offset).take (pageSize limit), topApplications, !omitted.isEmpty, omitted,
              n, limit.getD defaultPageSize, items.length⟩) := by
        rw [PagedResult.page, TrafficFlowReport.ofPage, hpaged]
        rfl
      have hkeys : ["clients", "limit", "offset", "omitted", "partial", "top_applications",
        "total"].Pairwise (· < ·) := by decide
      exact ⟨_, hanswer, List.pairwise_map.1 hkeys, rfl, ⟨n, rfl, hn⟩, rfl, hfree⟩
  | queryStats subject data =>
      obtain ⟨hlength, hwindow⟩ := projectStats_window hredact hitems
      obtain ⟨n, hn, hpaged⟩ := paginate_eq hpage ho data
      have hanswer : PagedResult.page tools (some (UInt64.ofNat offset)) limit
          (.queryStats subject data) = .ok (.obj
            [("data", .arr ((items.drop offset).take (pageSize limit))),
              ("limit", .num (.posInt (limit.getD defaultPageSize).toUInt64)),
              ("offset", .num (.posInt n)), ("total", .ofUsize data.length)]) := by
        rw [PagedResult.page, statsPage, hpaged]
        show (projectStats _ _ _ >>= _) = _
        rw [hwindow]
        rfl
      have hkeys : ["data", "limit", "offset", "total"].Pairwise (· < ·) := by decide
      exact ⟨_, hanswer, List.pairwise_map.1 hkeys, rfl, ⟨n, rfl, hn⟩, rfl, hfree⟩

/-- The longest array of a page, when it is the paged list. -/
theorem IsPage.longest_eq (h : IsPage field window offset fields) {longest : List Json}
    (hlargest : largestArray fields = some (key, longest)) (hkey : key = field) :
    longest = window := by
  subst hkey
  have hfound := h.ascending.mem_iff.1 (largestArray_mem hlargest)
  simpa using hfound.symm.trans h.window

/-- What is left of the paged list when the longest array of its page is shortened. -/
theorem IsPage.window_cutTo (h : IsPage field window offset fields)
    {longest : List Json} (hlargest : largestArray fields = some (key, longest)) (n : Nat) :
    (cutTo key longest (without key fields) n).get? field =
      some (.arr (if key = field then window.take n else window)) := by
  have hfree : field ∉ ["next_offset", "partial", "truncation"] := fun hmem =>
    h.free (List.Sublist.subset (.cons_cons _ (.cons _ (.refl _))) hmem)
  rw [get?_cutTo hfree]
  by_cases hkey : key = field
  · obtain rfl := h.longest_eq hlargest hkey
    rw [if_pos hkey, hkey, findEntry_insertEntry_self]
  · rw [if_neg hkey, findEntry_insertEntry_of_ne (Ne.symm hkey),
      findEntry_without (Ne.symm hkey), h.window]

/-- Where the caller goes on after the longest array of a page was shortened. -/
theorem IsPage.continueAt_cutTo (h : IsPage field window offset fields) (limit : Option UInt32)
    {longest : List Json} (hlargest : largestArray fields = some (key, longest)) (n : Nat) :
    continueAt limit offset (cutTo key longest (without key fields) n) =
      min (offset + n) (2 ^ 64 - 1) := by
  obtain ⟨m, hoffset, hm⟩ := h.offset
  have hkey : "offset" ≠ key := by
    rintro rfl
    have hfound := h.ascending.mem_iff.1 (largestArray_mem hlargest)
    cases hoffset.symm.trans hfound
  rw [continueAt, next_offset_cutTo ((findEntry_without hkey).trans hoffset)]
  show (cursorAfter m n).toNat = _
  rw [cursorAfter, UInt64.toNat_ofNat', Nat.mod_eq_of_lt (by omega), hm]

/-- An unshortened page leads past itself. -/
theorem IsPage.continueAt_page (h : IsPage field window offset fields) :
    continueAt limit offset (.obj fields) = offset + pageSize limit := by
  rw [continueAt, Json.get?_obj, h.noCursor]
  rfl

/-! ## One step -/

/-- What a step of the walk shows and where it leads. -/
structure StepAt (tools : Toolkit) (refuses : Json → Bool) (r : PagedResult)
    (limit : Option UInt32) (items : List Json) (offset : Nat) : Prop where
  shown : shownAt tools refuses r limit offset <+: items.drop offset
  size : (shownAt tools refuses r limit offset).length ≤ pageSize limit
  skip : ∀ o', nextAt tools refuses r limit offset = some o' →
    offset + (shownAt tools refuses r limit offset).length < o' →
    (shownAt tools refuses r limit offset).length = pageSize limit ∨
      items.length ≤ offset + (shownAt tools refuses r limit offset).length
  leads : (∃ o', nextAt tools refuses r limit offset = some o' ∧ offset < o' ∧
      (o' ≤ offset + (shownAt tools refuses r limit offset).length ∨
        items.length ≤ offset + (shownAt tools refuses r limit offset).length)) ↔
    ∀ fields, r.page tools (some (UInt64.ofNat offset)) limit = .ok (.obj fields) →
      LeadsOn tools.number resultBudget r.field (pageSize limit) (items.length - offset) fields

/-- Only one report is looked at. -/
theorem forall_report_iff {P : List (String × Json) → Prop}
    (hreport : r.page tools (some (UInt64.ofNat offset)) limit = .ok (.obj fields)) :
    (∀ fields, r.page tools (some (UInt64.ofNat offset)) limit = .ok (.obj fields) → P fields) ↔
      P fields := by
  constructor
  · exact fun h => h fields hreport
  · intro h fields' hfields'
    cases hreport.symm.trans hfields'
    exact h

theorem length_window (items : List Json) (offset size : Nat) :
    ((items.drop offset).take size).length = min size (items.length - offset) := by
  rw [List.length_take, List.length_drop]

/-- An answer that shows the next `m` items and sends its caller to `o`. -/
theorem step_of_shown {m o : Nat} (hm : m ≤ pageSize limit)
    (hreport : r.page tools (some (UInt64.ofNat offset)) limit = .ok (.obj fields))
    (hshown : shownAt tools refuses r limit offset = (items.drop offset).take m)
    (hnext : nextAt tools refuses r limit offset = some o)
    (hskip : offset + min m (items.length - offset) < o →
      min m (items.length - offset) = pageSize limit ∨
        items.length ≤ offset + min m (items.length - offset))
    (hleads : (offset < o ∧ (o ≤ offset + min m (items.length - offset) ∨
        items.length ≤ offset + min m (items.length - offset))) ↔
      LeadsOn tools.number resultBudget r.field (pageSize limit) (items.length - offset) fields) :
    StepAt tools refuses r limit items offset := by
  have hlength : (shownAt tools refuses r limit offset).length =
      min m (items.length - offset) := by
    rw [hshown, length_window]
  refine ⟨?_, ?_, ?_, ?_⟩
  · rw [hshown]
    exact List.take_prefix _ _
  · rw [hlength]
    omega
  · intro o' ho' hbeyond
    cases hnext.symm.trans ho'
    rw [hlength] at hbeyond ⊢
    exact hskip hbeyond
  · rw [forall_report_iff hreport, ← hleads, hlength]
    constructor
    · rintro ⟨o', ho', hadvance, hgood⟩
      cases hnext.symm.trans ho'
      exact ⟨hadvance, hgood⟩
    · rintro ⟨hadvance, hgood⟩
      exact ⟨o, hnext, hadvance, hgood⟩

/-- An answer that is refused shows nothing and leads nowhere. -/
theorem step_of_refused
    (hreport : r.page tools (some (UInt64.ofNat offset)) limit = .ok (.obj fields))
    (hanswer : answerAt tools refuses r limit offset = none)
    (hleads : ¬ LeadsOn tools.number resultBudget r.field (pageSize limit)
      (items.length - offset) fields) : StepAt tools refuses r limit items offset := by
  have hnext : nextAt tools refuses r limit offset = none := by
    rw [nextAt, hanswer, Option.map_none]
  have hempty : shownAt tools refuses r limit offset = [] := by
    rw [shownAt, hanswer]
    rfl
  refine ⟨?_, ?_, ?_, ?_⟩
  · rw [hempty]
    exact List.nil_prefix
  · rw [hempty]
    exact Nat.zero_le _
  · intro o' ho'
    cases hnext.symm.trans ho'
  · rw [forall_report_iff hreport]
    refine iff_of_false ?_ hleads
    rintro ⟨o', ho', -⟩
    cases hnext.symm.trans ho'

/-- A page that fits is shown, and leads past itself. -/
theorem step_of_fits
    (hrefuses : ∀ v, renderedLen tools.number v ≤ resultBudget → refuses v = false)
    (hsize : 0 < pageSize limit)
    (hreport : r.page tools (some (UInt64.ofNat offset)) limit = .ok (.obj fields))
    (hpaged : IsPage r.field ((items.drop offset).take (pageSize limit)) offset fields)
    (hfits : renderedLen tools.number (.obj fields) ≤ resultBudget) :
    StepAt tools refuses r limit items offset := by
  have hanswer : answerAt tools refuses r limit offset = some (.obj fields) := by
    rw [answerAt, hreport]
    show jsonToolResult _ _ _ = _
    rw [jsonToolResult, shrinkLargestArray, if_pos hfits, hrefuses _ hfits]
    rfl
  have hnext : nextAt tools refuses r limit offset = some (offset + pageSize limit) := by
    rw [nextAt, hanswer, Option.map_some, hpaged.continueAt_page]
  have hlist : shownAt tools refuses r limit offset =
      (items.drop offset).take (pageSize limit) := by
    rw [shownAt, hanswer, Option.bind_some, Json.get?_obj, hpaged.window]
    rfl
  have hleads : LeadsOn tools.number resultBudget r.field (pageSize limit)
      (items.length - offset) fields := .inl hfits
  refine step_of_shown le_rfl hreport hlist hnext (by omega) (iff_of_true ⟨?_, ?_⟩ hleads)
  · omega
  · omega

/-- What leads on, in terms of the number of items that are kept. -/
theorem leadsOn_iff (field : String) (hnumber : Json.DecimalIntegers tools.number) (size rest : Nat)
    {longest : List Json} (hfits : ¬ renderedLen tools.number (.obj fields) ≤ resultBudget)
    (hlargest : largestArray fields = some (key, longest)) (hsome : 0 < longest.length) :
    LeadsOn tools.number resultBudget field size rest fields ↔
      1 ≤ shownItems tools.number resultBudget key longest (without key fields) ∧
        (key = field ∨ rest ≤ size ∨
          shownItems tools.number resultBudget key longest (without key fields) ≤ size) := by
  have hdown : ∀ m n, m ≤ n →
      cutFits tools.number resultBudget key longest (without key fields) n = true →
      cutFits tools.number resultBudget key longest (without key fields) m = true :=
    cutFits_of_le hnumber
  unfold LeadsOn shownItems
  rw [or_iff_right hfits, one_le_bisect_iff hdown hsome, bisect_le_iff hdown size]
  constructor
  · exact fun h => h key longest hlargest
  · intro h key' longest' hlargest'
    cases hlargest.symm.trans hlargest'
    exact h

/-- What is answered in place of a page that does not fit. -/
theorem answerAt_of_cut {longest : List Json}
    (hreport : r.page tools (some (UInt64.ofNat offset)) limit = .ok (.obj fields))
    (hfits : ¬ renderedLen tools.number (.obj fields) ≤ resultBudget)
    (hlargest : largestArray fields = some (key, longest)) (refuses : Json → Bool) :
    answerAt tools refuses r limit offset =
      if refuses (cutTo key longest (without key fields)
        (shownItems tools.number resultBudget key longest (without key fields))) then none
      else some (cutTo key longest (without key fields)
        (shownItems tools.number resultBudget key longest (without key fields))) := by
  rw [answerAt, hreport]
  show jsonToolResult _ _ _ = _
  rw [jsonToolResult, shrinkLargestArray, if_neg hfits, hlargest]

/-- A page that does not fit loses items of its longest array. -/
theorem step_of_cut (hnumber : Json.DecimalIntegers tools.number)
    (hrefuses : ∀ v, renderedLen tools.number v ≤ resultBudget → refuses v = false)
    (hsize : 0 < pageSize limit) (hlimit : pageSize limit < 2 ^ 32) (hoffset : offset < 2 ^ 32)
    (ho : offset < items.length)
    (hreport : r.page tools (some (UInt64.ofNat offset)) limit = .ok (.obj fields))
    (hpaged : IsPage r.field ((items.drop offset).take (pageSize limit)) offset fields)
    (hfits : ¬ renderedLen tools.number (.obj fields) ≤ resultBudget) :
    StepAt tools refuses r limit items offset := by
  have hwindow := length_window items offset (pageSize limit)
  have hmem := hpaged.ascending.mem_iff.2 hpaged.window
  obtain ⟨⟨key, longest⟩, hlargest⟩ := largestArray_ne_none hmem
  have hlonger := length_le_of_largestArray hlargest hmem
  have hleads := leadsOn_iff r.field hnumber (pageSize limit) (items.length - offset) hfits hlargest
    (by omega)
  obtain ⟨-, hmost, hkept, -⟩ := bisect_spec
    (cutFits tools.number resultBudget key longest (without key fields))
    (Nat.zero_le longest.length)
  change shownItems tools.number resultBudget key longest (without key fields) ≤ _ at hmost
  change shownItems tools.number resultBudget key longest (without key fields) = 0 ∨
    cutFits _ _ _ _ _ (shownItems tools.number resultBudget key longest (without key fields)) = true
    at hkept
  have hshrunk := answerAt_of_cut hreport hfits hlargest refuses
  have hcontinue := hpaged.continueAt_cutTo limit hlargest
    (shownItems tools.number resultBudget key longest (without key fields))
  have hlist := hpaged.window_cutTo hlargest
    (shownItems tools.number resultBudget key longest (without key fields))
  generalize shownItems tools.number resultBudget key longest (without key fields) = n
    at hleads hmost hkept hshrunk hcontinue hlist
  by_cases hrefused : refuses (cutTo key longest (without key fields) n) = true
  · -- Nothing was left that fits, or the answer would not be refused.
    have hnone : n = 0 := by
      refine hkept.resolve_right fun hn => ?_
      rw [hrefuses _ (of_decide_eq_true hn)] at hrefused
      cases hrefused
    rw [if_pos hrefused] at hshrunk
    refine step_of_refused hreport hshrunk fun hled => ?_
    have hone := (hleads.1 hled).1
    omega
  · rw [if_neg hrefused] at hshrunk
    have hnext : nextAt tools refuses r limit offset = some (min (offset + n) (2 ^ 64 - 1)) := by
      rw [nextAt, hshrunk, Option.map_some, hcontinue]
    have hshown : shownAt tools refuses r limit offset =
        if key = r.field then ((items.drop offset).take (pageSize limit)).take n
        else (items.drop offset).take (pageSize limit) := by
      rw [shownAt, hshrunk, Option.bind_some, hlist]
      rfl
    by_cases hkey : key = r.field
    · -- The paged list is the longest array: as many items are shown as are counted.
      have hsame : longest.length = ((items.drop offset).take (pageSize limit)).length :=
        congrArg List.length (hpaged.longest_eq hlargest hkey)
      rw [if_pos hkey, List.take_take] at hshown
      refine step_of_shown (Nat.min_le_right _ _) hreport hshown hnext (by omega) ?_
      rw [hleads]
      constructor
      · exact fun hadvance => ⟨by omega, .inl hkey⟩
      · exact fun hled => ⟨by omega, .inl (by omega)⟩
    · rw [if_neg hkey] at hshown
      refine step_of_shown le_rfl hreport hshown hnext (by omega) ?_
      rw [hleads, or_iff_right hkey]
      constructor
      · exact fun hadvance => ⟨by omega, by omega⟩
      · exact fun hled => ⟨by omega, by omega⟩

theorem step_at (hnumber : Json.DecimalIntegers tools.number)
    (hredact : tools.toRedactor.Itemwise)
    (hrefuses : ∀ v, renderedLen tools.number v ≤ resultBudget → refuses v = false)
    (hitems : r.Lists tools items) (hpage : Grants tools.page limit items.length)
    (ho : offset < items.length) : StepAt tools refuses r limit items offset := by
  obtain ⟨fields, hreport, hpaged⟩ := r.isPage hredact hitems hpage ho
  obtain ⟨w, -, hstart, -⟩ := hpage.window offset ho
  have hoffset : offset < 2 ^ 32 := hstart ▸ w.start.toNat_lt
  have hlimit : pageSize limit < 2 ^ 32 := (limit.getD defaultPageSize).toNat_lt
  by_cases hfits : renderedLen tools.number (.obj fields) ≤ resultBudget
  · exact step_of_fits hrefuses hpage.positive hreport hpaged hfits
  · exact step_of_cut hnumber hrefuses hpage.positive hlimit hoffset ho hreport hpaged hfits

/-! ## The walk -/

/-- What a step shows is what it sees of the list. -/
theorem StepAt.shown_iff (h : StepAt tools refuses r limit items offset) {i : Nat}
    (hi : i < items.length) (hle : offset ≤ i) :
    (shownAt tools refuses r limit offset)[i - offset]? = some items[i] ↔
      i < offset + (shownAt tools refuses r limit offset).length := by
  obtain ⟨rest, hrest⟩ := h.shown
  constructor
  · intro hshown
    obtain ⟨hlt, -⟩ := List.getElem?_eq_some_iff.1 hshown
    omega
  · intro hlt
    have hshown : i - offset < (shownAt tools refuses r limit offset).length := by omega
    rw [← List.getElem?_append_left hshown, hrest, List.getElem?_drop, Nat.add_sub_cancel' hle,
      List.getElem?_eq_getElem hi]

/-- Items of the walk, in the words of the cursor. -/
theorem pagesThrough_iff_complete
    (hstep : ∀ o, Visits items.length (nextAt tools refuses r limit) o →
      StepAt tools refuses r limit items o) :
    PagesThrough tools refuses r limit items ↔
      Complete items.length (nextAt tools refuses r limit)
        fun o => (shownAt tools refuses r limit o).length := by
  constructor
  · intro h
    refine ⟨h.advances, fun i hi => ?_⟩
    obtain ⟨o, ho, hle, hshown⟩ := h.shows i hi
    exact ⟨o, ho, hle, ((hstep o ho).shown_iff hi hle).1 hshown⟩
  · intro h
    refine ⟨h.advances, fun i hi => ?_⟩
    obtain ⟨o, ho, hle, hseen⟩ := h.sees i hi
    exact ⟨o, ho, hle, ((hstep o ho).shown_iff hi hle).2 hseen⟩

/-- **The walk, step by step.**  It is complete exactly when each of its steps leads on. -/
theorem pagesThrough_iff_steps
    (hstep : ∀ o, Visits items.length (nextAt tools refuses r limit) o →
      StepAt tools refuses r limit items o) :
    PagesThrough tools refuses r limit items ↔
      ∀ o, Visits items.length (nextAt tools refuses r limit) o →
        ∀ fields, r.page tools (some (UInt64.ofNat o)) limit = .ok (.obj fields) →
          LeadsOn tools.number resultBudget r.field (pageSize limit) (items.length - o) fields := by
  rw [pagesThrough_iff_complete hstep, complete_iff (fun o ho => (hstep o ho).size)
    fun o o' ho => (hstep o ho).skip o']
  exact forall₂_congr fun o ho => (hstep o ho).leads

end Page

/-- **A caller reads the whole list**, and is led on until its end, exactly when each page it
comes to fits the budget, or is brought within it by cutting its longest array, which then is
the paged list or keeps no more items than a page has. -/
theorem pagesThrough_iff {tools : Toolkit} (hnumber : Json.DecimalIntegers tools.number)
    (hredact : tools.toRedactor.Itemwise) {refuses : Json → Bool}
    (hrefuses : ∀ v, renderedLen tools.number v ≤ resultBudget → refuses v = false)
    {r : PagedResult} {limit : Option UInt32} {items : List Json} (hitems : r.Lists tools items)
    (hpage : Grants tools.page limit items.length) :
    PagesThrough tools refuses r limit items ↔
      ∀ o, Visits items.length (nextAt tools refuses r limit) o →
        ∀ fields, r.page tools (some (UInt64.ofNat o)) limit = .ok (.obj fields) →
          LeadsOn tools.number resultBudget r.field (pageSize limit) (items.length - o) fields :=
  pagesThrough_iff_steps fun _ ho => step_at hnumber hredact hrefuses hitems hpage ho.1

/-! ## Two sites -/

theorem plainNumber_decimal : Json.DecimalIntegers Toolkit.plain.number := fun _ => rfl

theorem plain_itemwise : Toolkit.plain.toRedactor.Itemwise where
  projectMany allow items := by
    show Json.arr _ = Json.arr _
    congr 2
  redactJsonValue items := by
    show Json.arr items = Json.arr (items.map id)
    rw [List.map_id]

/-- `tool_result` refuses what renders to more than the limit. -/
def overLimit (v : Json) : Bool := maxJsonBytes < renderedLen Toolkit.plain.number v

theorem overLimit_of_fits (v : Json) (h : renderedLen Toolkit.plain.number v ≤ resultBudget) :
    overLimit v = false := by
  have hmargin : resultBudget ≤ maxJsonBytes := by decide
  exact decide_eq_false (by omega)

/-- The windows of two items, one by one. -/
theorem plain_grants : Grants Toolkit.plain.page (some 1) 2 := by
  refine ⟨by decide, fun offset ho => ?_⟩
  have hcases : offset = 0 ∨ offset = 1 := by omega
  rcases hcases with rfl | rfl
  · exact ⟨⟨0, 1⟩, rfl, rfl, rfl⟩
  · exact ⟨⟨1, 1⟩, rfl, rfl, rfl⟩

/-- Two devices. -/
def twoDevices : List Json := [.obj [("id", .str "d1")], .obj [("id", .str "d2")]]

theorem pagesThrough_iff_twoDevices :
    PagesThrough .plain overLimit (.siteHealth twoDevices .null []) (some 1) twoDevices := by
  refine (pagesThrough_iff (r := .siteHealth twoDevices .null []) plainNumber_decimal
    plain_itemwise overLimit_of_fits rfl plain_grants).2 ?_
  intro o ho fields hreport
  have hcases : o = 0 ∨ o = 1 := by
    have hlt : o < 2 := ho.1
    omega
  rcases hcases with rfl | rfl
  · cases hreport
    exact .inl (by decide +kernel)
  · cases hreport
    exact .inl (by decide +kernel)

/-- An edge of the topology. -/
def someEdge : Json :=
  .obj [("downlinkMac", .str "00:00:00:00:00:02"), ("type", .str "WIRED"),
    ("uplinkMac", .str "00:00:00:00:00:01")]

/-- More edges than an answer holds. -/
def manyEdges : List Json := List.replicate 6000 someEdge

/-- A site with the two devices and many edges. -/
def meshedSite : PagedResult := .topology manyEdges twoDevices [] []

/-- Its first page, with one device. -/
def meshedPage : List (String × Json) :=
  [("devices", .arr (twoDevices.take 1)), ("edges", .arr manyEdges), ("limit", .num (.posInt 1)),
    ("networks", .arr []), ("offset", .num (.posInt 0)), ("omitted", .arr []),
    ("partial", .bool false), ("total", .num (.posInt 2))]

theorem length_manyEdges : manyEdges.length = 6000 := List.length_replicate

theorem length_mul_le_prettySize {number : Number → String} {depth n : Nat} {items : List Json}
    (h : ∀ j ∈ items, n ≤ Json.prettySize number (depth + 1) j) :
    items.length * n ≤ Json.prettySize number depth (.arr items) := by
  have hsum := List.card_nsmul_le_sum (items.map (Json.prettySize number (depth + 1))) n
    (List.forall_mem_map.2 h)
  rw [List.length_map, Nat.nsmul_eq_mul] at hsum
  exact hsum.trans (Json.sum_le_prettySize_arr items)

theorem meshedPage_too_long :
    ¬ renderedLen Toolkit.plain.number (.obj meshedPage) ≤ resultBudget := by
  have hedge : 100 ≤ Json.prettySize Toolkit.plain.number 2 someEdge := by decide +kernel
  have hedges : manyEdges.length * 100 ≤
      Json.prettySize Toolkit.plain.number 1 (.arr manyEdges) :=
    length_mul_le_prettySize fun j hj => by rwa [List.eq_of_mem_replicate hj]
  rw [length_manyEdges] at hedges
  have hpage : Json.prettySize Toolkit.plain.number 1 (.arr manyEdges) ≤
      renderedLen Toolkit.plain.number (.obj meshedPage) :=
    Json.prettySize_le_obj (e := ("edges", .arr manyEdges))
      (List.mem_cons_of_mem _ List.mem_cons_self)
  have hbudget : resultBudget = 516096 := rfl
  omega

/-- The second device of the site is not shown to a caller that reads a device at a time: cut to
two edges the page fits, and the caller is sent past as many devices as there are edges left. -/
theorem not_pagesThrough_meshedSite :
    ¬ PagesThrough .plain overLimit meshedSite (some 1) twoDevices := by
  intro h
  have hstep := (pagesThrough_iff_steps fun o ho => step_at (r := meshedSite) plainNumber_decimal
    plain_itemwise overLimit_of_fits rfl plain_grants ho.1).1 h 0 (visits_zero (by decide))
    meshedPage rfl
  have hlargest : largestArray meshedPage = some ("edges", manyEdges) := by
    simp [largestArray, meshedPage, twoDevices, length_manyEdges]
  obtain ⟨-, hcut⟩ := hstep.resolve_left meshedPage_too_long _ _ hlargest
  rcases hcut with hcut | hcut | hcut | hcut
  · exact absurd hcut (by decide)
  · exact absurd hcut (by decide)
  · rw [length_manyEdges] at hcut
    exact absurd hcut (by decide)
  · have hfits : cutFits Toolkit.plain.number resultBudget "edges" manyEdges
        (without "edges" meshedPage) 2 = true := by decide +kernel
    cases hfits.symm.trans hcut

end UnifiMcp
