import UnifiMcp.Client.Upstream
import UnifiMcp.Json.Unambiguous
import UnifiMcp.Tools.Read

/-!
# How far a search scans

A search reads a collection page by page, up to its end or to the cap, and filters what it has
read.  Before each page it has read a prefix of the collection, as long as the offset it asks
for next (`eval_scan_from`).  The last page before the cap does not show whether anything
follows it, so a collection that is exactly as long as the cap is reported like a longer one.
-/

namespace UnifiMcp

open Interaction

namespace UnifiClient

variable {c : UnifiClient} {path siteUuid : String} {upstream : Upstream} {items : List Json}

/-- The collection is served page by page: asked for a page, the controller answers with the
items from its offset on, and as many as a page holds. -/
def ServesScan (c : UnifiClient) (path siteUuid : String) (upstream : Upstream)
    (items : List Json) : Prop :=
  ∀ offset, ∃ expanded response raw,
    c.expandPath path [("site", siteUuid)] = .ok expanded ∧
      upstream (requestOf c .get path [("site", siteUuid)]
        [("offset", toString offset), ("limit", toString searchPageSize)] none expanded) =
          .ok response ∧ response.status < 300 ∧ response.json = .ok raw ∧
            unwrapEnvelopedData raw = .ok ((items.drop offset).take searchPageSize)

theorem ServesScan.eval_fetchPage (h : c.ServesScan path siteUuid upstream items) (offset : Nat)
    (caches : Caches) : ∃ t, (c.fetchPage path siteUuid offset).eval upstream caches =
      (.ok ((items.drop offset).take searchPageSize), t, caches) := by
  obtain ⟨expanded, response, raw, hexpand, hanswer, hstatus, hjson, hitems⟩ := h offset
  have hpermitted : ensureSurfacePermitted c.controller .supported = .ok () := rfl
  exact Fallible.exists_eval_bind
    ⟨_, eval_get _ upstream caches hpermitted hexpand hanswer hstatus hjson⟩
    (Fallible.exists_eval_ofExcept hitems caches)

/-- A scan that has read the items before its offset, with so many pages to the cap. -/
theorem eval_scan_from (h : c.ServesScan path siteUuid upstream items) (caches : Caches)
    (pages : Nat) {offset : Nat} (hpages : offset + pages * searchPageSize = searchScanCap)
    (hpositive : 0 < pages) (hoffset : offset ≤ items.length) :
    ∃ t, (c.scan path siteUuid offset (items.take offset)).eval upstream caches =
      (.ok (items.take searchScanCap, decide (searchScanCap ≤ items.length)), t, caches) := by
  induction pages generalizing offset with
  | zero => exact absurd hpositive (Nat.lt_irrefl 0)
  | succ pages ih =>
      have hsize : searchPageSize = 200 := rfl
      rw [Nat.add_mul, Nat.one_mul] at hpages
      rw [scan]
      refine Fallible.exists_eval_bind (h.eval_fetchPage offset caches) ?_
      simp only [← List.take_add, List.length_take, List.length_drop]
      split_ifs with hcap hlast
      · -- the cap is reached, on a full page
        have hlast : offset + searchPageSize = searchScanCap := by omega
        have hfull : searchPageSize ≤ min searchPageSize (items.length - offset) := by omega
        have hlong : searchScanCap ≤ items.length := by omega
        rw [hlast, decide_eq_true hfull, decide_eq_true hlong]
        exact ⟨[], rfl⟩
      · -- the collection ends before the page does
        have hshort : ¬ searchScanCap ≤ items.length := by omega
        have hwhole : items.length ≤ searchScanCap := by omega
        rw [decide_eq_false hshort, List.take_of_length_le hwhole,
          List.take_of_length_le (by omega)]
        exact ⟨[], rfl⟩
      · -- a full page below the cap, so that another one fits under it
        have hnext : 0 < pages := by
          rcases Nat.eq_zero_or_pos pages with rfl | hpos
          · omega
          · exact hpos
        exact ih (by omega) hnext (by omega)

/-- What a search leg finds in a collection. -/
theorem eval_scanAndFilter (h : c.ServesScan path siteUuid upstream items) (tools : Toolkit)
    (query : String) (limit : Nat) (caches : Caches) :
    ∃ t, (c.scanAndFilter tools path siteUuid query limit).eval upstream caches =
      (.ok ⟨filterByQuery tools (items.take searchScanCap) query limit,
        decide (searchScanCap ≤ items.length)⟩, t, caches) := by
  have hscan : ∃ t, (c.scan path siteUuid 0 []).eval upstream caches =
      (.ok (items.take searchScanCap, decide (searchScanCap ≤ items.length)), t, caches) :=
    eval_scan_from h caches 25 rfl (by decide) (Nat.zero_le _)
  exact Fallible.exists_eval_bind hscan ⟨[], rfl⟩

end UnifiClient

/-! ## What a scan comes to -/

/-- **A search leg finds what matches among the items up to the cap, and says that it was cut
short exactly when the collection reaches the cap.**  The collection is of any length, and the
scan ends whatever its length is. -/
theorem scanAndFilter_spec {c : UnifiClient} {path siteUuid : String} {upstream : Upstream}
    {items : List Json} (h : c.ServesScan path siteUuid upstream items) (tools : Toolkit)
    (query : String) (limit : Nat) (caches : Caches) :
    ∃ result t, (c.scanAndFilter tools path siteUuid query limit).eval upstream caches =
        (.ok result, t, caches) ∧
      result.items =
        filterByQuery tools (items.take (min items.length searchScanCap)) query limit ∧
      (result.capped = true ↔ searchScanCap ≤ items.length) := by
  obtain ⟨t, heval⟩ := UnifiClient.eval_scanAndFilter h tools query limit caches
  refine ⟨_, t, heval, ?_, by simp⟩
  rw [Nat.min_comm, ← List.take_eq_take_min]

/-! ## Collections of several pages -/

/-- A number in decimal digits. -/
def decimal (s : String) : Nat := Nat.ofDigitChars 10 s.toList 0

theorem decimal_toString (n : Nat) : decimal (toString n) = n := by
  change Nat.ofDigitChars 10 n.repr.toList 0 = n
  simp [Nat.repr_eq_ofList_toDigits]

/-- A controller that serves a collection page by page. -/
def pagesUpstream (items : List Json) : Upstream := fun request =>
  let parameter name := decimal ((request.query.lookup name).getD "")
  .ok ⟨200, "", .ok (.obj [("data",
    .arr ((items.drop (parameter "offset")).take (parameter "limit")))])⟩

/-- A client of it. -/
def scanClient : UnifiClient where
  controller :=
    ⟨"https://unifi.example", "default", some "UNIFI_API_KEY", none, none, false, false⟩
  expandPath template _ := .ok template

theorem servesScan_pagesUpstream (path : String) (items : List Json) :
    scanClient.ServesScan path "u1" (pagesUpstream items) items := by
  intro offset
  refine ⟨_, _, _, rfl, rfl, (show 200 < 300 by decide), rfl, ?_⟩
  have hoffset : decimal (toString offset) = offset := decimal_toString offset
  have hlimit : decimal (toString searchPageSize) = searchPageSize := decimal_toString _
  change Except.ok ((items.drop (decimal (toString offset))).take
    (decimal (toString searchPageSize))) = _
  rw [hoffset, hlimit]

/-- A client of this name. -/
def namedClient (name : String) : Json :=
  .obj [("macAddress", .str "00:11:22:33:44:55"), ("name", .str name)]

/-- So many laptops, and a guest after them. -/
def laptopsThen (n : Nat) (guest : String) : List Json :=
  List.replicate n (namedClient "Laptop") ++ [namedClient guest]

theorem not_searchHit_laptop : searchHit .plain "GUEST" (namedClient "Laptop") = false := by
  decide +kernel

theorem searchHit_guest : ∀ guest ∈ ["Guest 1", "Guest 2"],
    searchHit .plain "GUEST" (namedClient guest) = true := by
  decide +kernel

theorem filter_replicate_laptop (n : Nat) :
    (List.replicate n (namedClient "Laptop")).filter (searchHit .plain "GUEST") = [] := by
  rw [List.filter_replicate, not_searchHit_laptop]
  rfl

theorem filter_laptopsThen (n : Nat) {guest : String} (hguest : guest ∈ ["Guest 1", "Guest 2"]) :
    (laptopsThen n guest).filter (searchHit .plain "GUEST") = [namedClient guest] := by
  rw [laptopsThen, List.filter_append, filter_replicate_laptop, List.nil_append,
    List.filter_singleton, searchHit_guest guest hguest]
  rfl

theorem length_laptopsThen (n : Nat) (guest : String) : (laptopsThen n guest).length = n + 1 := by
  simp [laptopsThen]

/-- A search for guests among 250 clients finds the one at the end of the first page and the one
at the end of the second.  Among 5001 clients it does not look at the last one, and says so. -/
theorem scanAndFilter_spec_guests :
    (∃ result t, (scanClient.scanAndFilter .plain "/clients" "u1" "GUEST" 10).eval
        (pagesUpstream (laptopsThen 199 "Guest 1" ++ laptopsThen 49 "Guest 2"))
        ⟨.ok none, .ok none⟩ = (.ok result, t, ⟨.ok none, .ok none⟩) ∧
      result.items = [namedClient "Guest 1", namedClient "Guest 2"] ∧
      ¬ result.capped = true) ∧
    ∃ result t, (scanClient.scanAndFilter .plain "/clients" "u1" "GUEST" 10).eval
        (pagesUpstream (laptopsThen 199 "Guest 1" ++ laptopsThen 4800 "Guest 2"))
        ⟨.ok none, .ok none⟩ = (.ok result, t, ⟨.ok none, .ok none⟩) ∧
      result.items = [namedClient "Guest 1"] ∧ result.capped = true := by
  have hlength : ∀ n, (laptopsThen 199 "Guest 1" ++ laptopsThen n "Guest 2").length = n + 201 := by
    intro n
    rw [List.length_append, length_laptopsThen, length_laptopsThen, Nat.add_comm]
  constructor
  · obtain ⟨result, t, heval, hitems, hcapped⟩ := scanAndFilter_spec
      (servesScan_pagesUpstream "/clients" (laptopsThen 199 "Guest 1" ++ laptopsThen 49 "Guest 2"))
      .plain "GUEST" 10 ⟨.ok none, .ok none⟩
    rw [hlength] at hitems hcapped
    refine ⟨result, t, heval, ?_, fun h => absurd (hcapped.1 h) (by decide)⟩
    have hwhole : (laptopsThen 199 "Guest 1" ++ laptopsThen 49 "Guest 2").take 250 =
        laptopsThen 199 "Guest 1" ++ laptopsThen 49 "Guest 2" :=
      List.take_of_length_le (hlength 49).le
    rw [hitems, show min (49 + 201) searchScanCap = 250 from rfl, hwhole, filterByQuery_eq,
      List.filter_append, filter_laptopsThen 199 (by decide), filter_laptopsThen 49 (by decide)]
    rfl
  · obtain ⟨result, t, heval, hitems, hcapped⟩ := scanAndFilter_spec
      (servesScan_pagesUpstream "/clients"
        (laptopsThen 199 "Guest 1" ++ laptopsThen 4800 "Guest 2"))
      .plain "GUEST" 10 ⟨.ok none, .ok none⟩
    rw [hlength] at hitems hcapped
    refine ⟨result, t, heval, ?_, hcapped.2 (by decide)⟩
    have hlast : (laptopsThen 199 "Guest 1" ++ laptopsThen 4800 "Guest 2").take 5000 =
        laptopsThen 199 "Guest 1" ++ List.replicate 4800 (namedClient "Laptop") := by
      have hbefore : (laptopsThen 199 "Guest 1" ++
          List.replicate 4800 (namedClient "Laptop")).length = 5000 := by
        rw [List.length_append, length_laptopsThen, List.length_replicate]
      change (_ ++ (List.replicate 4800 (namedClient "Laptop") ++ [_])).take 5000 = _
      rw [← List.append_assoc, List.take_left' hbefore]
    rw [hitems, show min (4800 + 201) searchScanCap = 5000 from rfl, hlast, filterByQuery_eq,
      List.filter_append, filter_laptopsThen 199 (by decide), filter_replicate_laptop]
    rfl

/-- A collection that is exactly as long as the cap is seen whole, and said to be cut short. -/
theorem capped_at_searchScanCap :
    ∃ items : List Json, scanClient.ServesScan "/clients" "u1" (pagesUpstream items) items ∧
      ¬ searchScanCap < items.length ∧
      ∃ result t, (scanClient.scanAndFilter .plain "/clients" "u1" "" 10).eval
          (pagesUpstream items) ⟨.ok none, .ok none⟩ = (.ok result, t, ⟨.ok none, .ok none⟩) ∧
        result.capped = true := by
  have hserves := servesScan_pagesUpstream "/clients" (List.replicate searchScanCap Json.null)
  obtain ⟨t, heval⟩ := UnifiClient.eval_scanAndFilter hserves .plain "" 10 ⟨.ok none, .ok none⟩
  rw [List.length_replicate] at heval
  refine ⟨_, hserves, ?_, _, t, heval, rfl⟩
  rw [List.length_replicate]
  exact Nat.lt_irrefl _

end UnifiMcp
