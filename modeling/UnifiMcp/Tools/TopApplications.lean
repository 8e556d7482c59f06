import Mathlib.Data.UInt
import UnifiMcp.Collections.Tally
import UnifiMcp.Tools.Workflow

/-!
# The applications with the most traffic

The bytes of an application are added up over all stations in words of 64 bits, and the ten
applications with the most are listed.  What is added up is exact up to the size of a word
(`findEntry_byteCounts`), so the list is right exactly when the traffic of every application
fits one (`topApplications_iff`).
-/

namespace UnifiMcp

open Collections

/-! ## What the stations report -/

/-- What a station reports of an application: its name and the bytes in the two directions. -/
def applicationEntry (app : Json) : Option (String × UInt64 × UInt64) := do
  let name ← app.getStr? "app"
  let tx ← (app.get? "tx_bytes").bind Json.asU64?
  let rx ← (app.get? "rx_bytes").bind Json.asU64?
  pure (name, tx, rx)

/-- What all stations report. -/
def applicationEntries (stats : List Json) : List (String × UInt64 × UInt64) :=
  (stats.flatMap fun stat => ((stat.get? "by_app").bind Json.asArray?).getD []).filterMap
    applicationEntry

/-- The bytes of an application in both directions, over all that is reported of it. -/
def exactBytes (name : String) (entries : List (String × UInt64 × UInt64)) : Nat :=
  ((valuesOf name entries).map fun bytes => bytes.1.toNat + bytes.2.toNat).sum

theorem exactBytes_cons (name : String) (e : String × UInt64 × UInt64)
    (entries : List (String × UInt64 × UInt64)) :
    exactBytes name (e :: entries) =
      (if e.1 = name then e.2.1.toNat + e.2.2.toNat else 0) + exactBytes name entries := by
  unfold exactBytes
  rw [valuesOf_cons]
  split_ifs <;> simp

/-! ## Adding up in machine words -/

/-- The bytes of every application, as they are added up. -/
def byteCounts (entries : List (String × UInt64 × UInt64)) : List (String × UInt64) :=
  (entries.map fun e => (e.1, e.2.1 + e.2.2)).foldl addBytes []

/-- The sum of two words, if it fits one. -/
def checkedWordAdd (a b : UInt64) : Option UInt64 :=
  if a.toNat + b.toNat < 2 ^ 64 then some (a + b) else none

/-- The same additions, each of them checked. -/
def checkedCounts : List (String × UInt64 × UInt64) → List (String × UInt64) →
    Option (List (String × UInt64))
  | [], counts => some counts
  | (name, tx, rx) :: rest, counts => do
      let bytes ← checkedWordAdd tx rx
      let total ← checkedWordAdd ((findEntry name counts).getD 0) bytes
      checkedCounts rest (insertEntry name total counts)

theorem toNat_add_of_lt {a b : UInt64} (h : a.toNat + b.toNat < 2 ^ 64) :
    (a + b).toNat = a.toNat + b.toNat := by
  rw [UInt64.toNat_add, Nat.mod_eq_of_lt h]

/-- The first two additions fit, and so do the others, from the count they come to. -/
theorem checkedCounts_cons_isSome {name : String} {tx rx : UInt64}
    {rest : List (String × UInt64 × UInt64)} {counts : List (String × UInt64)} :
    (checkedCounts ((name, tx, rx) :: rest) counts).isSome ↔
      tx.toNat + rx.toNat < 2 ^ 64 ∧
        ((findEntry name counts).getD 0).toNat + (tx + rx).toNat < 2 ^ 64 ∧
        (checkedCounts rest
          (insertEntry name ((findEntry name counts).getD 0 + (tx + rx)) counts)).isSome := by
  rw [checkedCounts, Option.bind_eq_bind]
  by_cases hfits : tx.toNat + rx.toNat < 2 ^ 64
  · have hbytes : checkedWordAdd tx rx = some (tx + rx) := if_pos hfits
    rw [hbytes, Option.bind_some, and_iff_right hfits]
    by_cases hfits' : ((findEntry name counts).getD 0).toNat + (tx + rx).toNat < 2 ^ 64
    · have htotal : checkedWordAdd ((findEntry name counts).getD 0) (tx + rx) =
          some ((findEntry name counts).getD 0 + (tx + rx)) := if_pos hfits'
      rw [htotal, Option.bind_some, and_iff_right hfits']
    · have htotal : checkedWordAdd ((findEntry name counts).getD 0) (tx + rx) = none :=
        if_neg hfits'
      rw [htotal, Option.bind_none]
      exact iff_of_false Bool.false_ne_true fun h => hfits' h.1
  · have hbytes : checkedWordAdd tx rx = none := if_neg hfits
    rw [hbytes, Option.bind_none]
    exact iff_of_false Bool.false_ne_true fun h => hfits h.1

/-- Counting a record moves its bytes from what is still to come to what has been counted. -/
theorem toNat_insertEntry_add {name : String} {tx rx total : UInt64}
    {counts : List (String × UInt64)}
    (htotal : total.toNat = ((findEntry name counts).getD 0).toNat + (tx.toNat + rx.toNat))
    (rest : List (String × UInt64 × UInt64)) (name' : String) :
    ((findEntry name' (insertEntry name total counts)).getD 0).toNat + exactBytes name' rest =
      ((findEntry name' counts).getD 0).toNat + exactBytes name' ((name, tx, rx) :: rest) := by
  rw [exactBytes_cons]
  by_cases hname : name = name'
  · subst hname
    rw [findEntry_insertEntry_self, Option.getD_some, htotal, if_pos rfl, Nat.add_assoc]
  · rw [findEntry_insertEntry_of_ne (Ne.symm hname), if_neg hname, Nat.zero_add]

/-- No addition overflows exactly when what every application has in the end fits a word. -/
theorem checkedCounts_isSome (entries : List (String × UInt64 × UInt64))
    (counts : List (String × UInt64)) :
    (checkedCounts entries counts).isSome ↔
      ∀ name, ((findEntry name counts).getD 0).toNat + exactBytes name entries < 2 ^ 64 := by
  induction entries generalizing counts with
  | nil =>
      refine iff_of_true rfl fun name => ?_
      exact ((findEntry name counts).getD 0).toNat_lt
  | cons e rest ih =>
      obtain ⟨name, tx, rx⟩ := e
      rw [checkedCounts_cons_isSome, ih]
      constructor
      · rintro ⟨hfits, hfits', hrest⟩ name'
        have htotal : ((findEntry name counts).getD 0 + (tx + rx)).toNat =
            ((findEntry name counts).getD 0).toNat + (tx.toNat + rx.toNat) := by
          rw [toNat_add_of_lt hfits', toNat_add_of_lt hfits]
        rw [← toNat_insertEntry_add htotal]
        exact hrest name'
      · intro h
        have hname := h name
        rw [exactBytes_cons, if_pos rfl] at hname
        have hfits : tx.toNat + rx.toNat < 2 ^ 64 := by
          dsimp only at hname
          omega
        have hfits' : ((findEntry name counts).getD 0).toNat + (tx + rx).toNat < 2 ^ 64 := by
          rw [toNat_add_of_lt hfits]
          dsimp only at hname
          omega
        refine ⟨hfits, hfits', fun name' => ?_⟩
        have htotal : ((findEntry name counts).getD 0 + (tx + rx)).toNat =
            ((findEntry name counts).getD 0).toNat + (tx.toNat + rx.toNat) := by
          rw [toNat_add_of_lt hfits', toNat_add_of_lt hfits]
        rw [toNat_insertEntry_add htotal]
        exact h name'

/-- A word that sums up words is their exact sum as far as a word goes. -/
theorem sum_words (values : List (UInt64 × UInt64)) :
    (values.map fun bytes => bytes.1 + bytes.2).sum =
      UInt64.ofNat (values.map fun bytes => bytes.1.toNat + bytes.2.toNat).sum := by
  induction values with
  | nil => rfl
  | cons bytes values ih =>
      rw [List.map_cons, List.sum_cons, ih, List.map_cons, List.sum_cons, UInt64.ofNat_add,
        UInt64.ofNat_add, UInt64.ofNat_toNat, UInt64.ofNat_toNat]

/-- What is counted for an application. -/
theorem findEntry_byteCounts (name : String) (entries : List (String × UInt64 × UInt64)) :
    findEntry name (byteCounts entries) =
      if name ∈ keys entries then some (UInt64.ofNat (exactBytes name entries)) else none := by
  have hadd : addBytes = addEntry := rfl
  have hkeys : keys (entries.map fun e => (e.1, e.2.1 + e.2.2)) = keys entries := by
    unfold keys
    rw [List.map_map]
    rfl
  unfold byteCounts
  rw [hadd, findEntry_foldl_addEntry, hkeys, valuesOf_map fun bytes : UInt64 × UInt64 =>
    bytes.1 + bytes.2, sum_words]
  simp only [findEntry_nil, Option.getD_none, zero_add]
  rfl

/-! ## The list -/

/-- The applications that are listed, with their bytes. -/
def topApplications (tools : Toolkit) (stats : List Json) : List (String × UInt64) :=
  ((tools.hashOrder (byteCounts (applicationEntries stats))).mergeSort
    fun a b => b.2 ≤ a.2).take 10

/-- An application as it is listed. -/
def applicationJson (e : String × UInt64) : Json :=
  .obj [("application", .str e.1), ("totalBytes", .num (.posInt e.2))]

theorem applicationBytes_eq (app : Json) :
    applicationBytes app = (applicationEntry app).map fun e => (e.1, e.2.1 + e.2.2) := by
  unfold applicationBytes applicationEntry
  cases app.getStr? "app" with
  | none => rfl
  | some name =>
      cases (app.get? "tx_bytes").bind Json.asU64? with
      | none => rfl
      | some tx => cases (app.get? "rx_bytes").bind Json.asU64? <;> rfl

theorem extractTopApplications_eq (tools : Toolkit) (stats : List Json) :
    extractTopApplications tools stats = (topApplications tools stats).map applicationJson := by
  have hentries : ∀ apps : List Json, apps.filterMap applicationBytes =
      (apps.filterMap applicationEntry).map fun e => (e.1, e.2.1 + e.2.2) := by
    intro apps
    rw [List.map_filterMap]
    exact List.filterMap_congr fun app _ => applicationBytes_eq app
  unfold extractTopApplications topApplications byteCounts applicationEntries
  rw [← hentries]
  rfl

/-- The list is right: at most ten applications, each once and with the exact bytes reported of
it, in non-increasing order, and none is left out that has more than one that is listed. -/
structure IsTopTen (entries : List (String × UInt64 × UInt64)) (shown : List (String × UInt64)) :
    Prop where
  length : shown.length ≤ 10
  sorted : shown.Pairwise fun a b => b.2 ≤ a.2
  nodup : (keys shown).Nodup
  exact : ∀ e ∈ shown, e.1 ∈ keys entries ∧ e.2.toNat = exactBytes e.1 entries
  omitted : ∀ name ∈ keys entries, name ∉ keys shown →
    shown.length = 10 ∧ ∀ e ∈ shown, exactBytes name entries ≤ e.2.toNat

section Top

variable {tools : Toolkit} {stats : List Json}

/-- What is listed and what is not is what was counted, in another order. -/
theorem mem_byteCounts_iff (horder : ∀ counts, (tools.hashOrder counts).Perm counts)
    (e : String × UInt64) :
    e ∈ (tools.hashOrder (byteCounts (applicationEntries stats))).mergeSort
        (fun a b => b.2 ≤ a.2) ↔
      e.1 ∈ keys (applicationEntries stats) ∧
        e.2 = UInt64.ofNat (exactBytes e.1 (applicationEntries stats)) := by
  have hascending : Ascending (byteCounts (applicationEntries stats)) :=
    ascending_foldl_addEntry List.Pairwise.nil _
  rw [List.mem_mergeSort, (horder _).mem_iff, hascending.mem_iff, findEntry_byteCounts,
    Option.ite_none_right_eq_some, Option.some_inj, eq_comm (a := e.2)]

theorem pairwise_mergeSort_bytes (counts : List (String × UInt64)) :
    (counts.mergeSort fun a b => b.2 ≤ a.2).Pairwise fun a b => b.2 ≤ a.2 := by
  have htrans : ∀ a b c : String × UInt64, decide (b.2 ≤ a.2) = true → decide (c.2 ≤ b.2) = true →
      decide (c.2 ≤ a.2) = true := by
    simp only [decide_eq_true_eq]
    exact fun a b c hab hbc => UInt64.le_trans hbc hab
  have htotal : ∀ a b : String × UInt64, (decide (b.2 ≤ a.2) || decide (a.2 ≤ b.2)) = true := by
    simp only [Bool.or_eq_true, decide_eq_true_eq]
    exact fun a b => UInt64.le_total b.2 a.2
  exact (List.pairwise_mergeSort htrans htotal counts).imp of_decide_eq_true

/-- The list is right when the bytes of every application fit a word. -/
theorem isTopTen_topApplications (horder : ∀ counts, (tools.hashOrder counts).Perm counts)
    (hfits : ∀ name, exactBytes name (applicationEntries stats) < 2 ^ 64) :
    IsTopTen (applicationEntries stats) (topApplications tools stats) := by
  have hexact : ∀ e ∈ (tools.hashOrder (byteCounts (applicationEntries stats))).mergeSort
      (fun a b => b.2 ≤ a.2), e.1 ∈ keys (applicationEntries stats) ∧
        e.2.toNat = exactBytes e.1 (applicationEntries stats) := by
    intro e he
    obtain ⟨hname, hbytes⟩ := (mem_byteCounts_iff horder e).1 he
    rw [hbytes, UInt64.toNat_ofNat', Nat.mod_eq_of_lt (hfits e.1)]
    exact ⟨hname, rfl⟩
  have hsorted := pairwise_mergeSort_bytes
    (tools.hashOrder (byteCounts (applicationEntries stats)))
  unfold topApplications
  constructor
  case length => exact List.length_take_le _ _
  case sorted => exact hsorted.sublist (List.take_sublist _ _)
  case exact => exact fun e he => hexact e (List.mem_of_mem_take he)
  case nodup =>
    have hascending : Ascending (byteCounts (applicationEntries stats)) :=
      ascending_foldl_addEntry List.Pairwise.nil _
    have hkeys : (keys (byteCounts (applicationEntries stats))).Nodup :=
      (List.pairwise_map.2 hascending).imp fun hlt => hlt.ne
    have hperm := (List.mergeSort_perm (tools.hashOrder (byteCounts (applicationEntries stats)))
      fun a b => b.2 ≤ a.2).trans (horder _)
    exact ((hperm.map Prod.fst).nodup_iff.2 hkeys).sublist ((List.take_sublist _ _).map _)
  case omitted =>
    intro name hname hshown
    have hmem : (name, UInt64.ofNat (exactBytes name (applicationEntries stats))) ∈
        (tools.hashOrder (byteCounts (applicationEntries stats))).mergeSort
          fun a b => b.2 ≤ a.2 := (mem_byteCounts_iff horder _).2 ⟨hname, rfl⟩
    rw [← List.take_append_drop 10 (List.mergeSort _ _), List.mem_append] at hmem
    rcases hmem with hmem | hmem
    · exact absurd (mem_keys.2 ⟨_, hmem⟩) hshown
    · refine ⟨?_, fun e he => ?_⟩
      · have hlong := List.length_pos_of_mem hmem
        rw [List.length_drop] at hlong
        rw [List.length_take]
        omega
      · have hle := rel_of_mem_take_of_mem_drop hsorted he hmem
        rw [← (hexact _ (List.mem_of_mem_drop hmem)).2]
        exact UInt64.le_iff_toNat_le.1 hle

/-- **When the applications with the most traffic are listed right.**  The list is right, and no
addition on the way overflows, exactly when the bytes of every application, in both directions
and over all stations, fit 64 bits. -/
theorem topApplications_iff (horder : ∀ counts, (tools.hashOrder counts).Perm counts) :
    (∃ shown, extractTopApplications tools stats = shown.map applicationJson ∧
        IsTopTen (applicationEntries stats) shown ∧
        (checkedCounts (applicationEntries stats) []).isSome) ↔
      ∀ name, exactBytes name (applicationEntries stats) < 2 ^ 64 := by
  have hchecked : (checkedCounts (applicationEntries stats) []).isSome ↔
      ∀ name, exactBytes name (applicationEntries stats) < 2 ^ 64 := by
    rw [checkedCounts_isSome]
    simp
  constructor
  · rintro ⟨-, -, -, hsome⟩
    exact hchecked.1 hsome
  · intro hfits
    exact ⟨_, extractTopApplications_eq tools stats, isTopTen_topApplications horder hfits,
      hchecked.2 hfits⟩

end Top

/-! ## Stations that fit and one that does not -/

/-- What is reported of one application is part of what is reported of all. -/
theorem exactBytes_le_sum (name : String) (entries : List (String × UInt64 × UInt64)) :
    exactBytes name entries ≤ (entries.map fun e => e.2.1.toNat + e.2.2.toNat).sum := by
  induction entries with
  | nil => exact le_rfl
  | cons e rest ih =>
      rw [exactBytes_cons, List.map_cons, List.sum_cons]
      refine Nat.add_le_add ?_ ih
      split_ifs
      · exact le_rfl
      · exact Nat.zero_le _

/-- A station that reports these bytes of these applications. -/
def reporting (apps : List (String × UInt64 × UInt64)) : Json :=
  .obj [("by_app", .arr (apps.map fun e => .obj [("app", .str e.1),
    ("rx_bytes", .num (.posInt e.2.2)), ("tx_bytes", .num (.posInt e.2.1))]))]

/-- Three stations with twelve applications, some of them on two stations. -/
def household : List Json :=
  [reporting [("video", 7, 5), ("mail", 1, 2), ("games", 30, 4), ("music", 6, 6), ("news", 2, 0)],
    reporting [("video", 90, 10), ("chat", 3, 3), ("maps", 4, 4), ("mail", 20, 7), ("shop", 9, 0)],
    reporting [("dns", 1, 0), ("backup", 50, 1), ("calls", 8, 8), ("music", 5, 5), ("voice", 2, 2)]]

/-- The ten of them with the most bytes, in the order in which they are listed. -/
def householdTop : List (String × UInt64) :=
  [("video", 112), ("backup", 51), ("games", 34), ("mail", 30), ("music", 22), ("calls", 16),
    ("shop", 9), ("maps", 8), ("chat", 6), ("voice", 4)]

theorem topApplications_household : topApplications .plain household = householdTop := by
  let ordered := householdTop ++ [("news", 2), ("dns", 1)]
  have hperm : (byteCounts (applicationEntries household)).Perm ordered := by decide +kernel
  have hsorted : ordered.Pairwise fun a b => b.2 ≤ a.2 := by decide +kernel
  -- no two of them have the same bytes, so that there is one order only
  have hdistinct : ∀ a ∈ ordered, ∀ b ∈ ordered, b.2 ≤ a.2 → a.2 ≤ b.2 → a = b := by
    decide +kernel
  have hmerged : (byteCounts (applicationEntries household)).mergeSort (fun a b => b.2 ≤ a.2) =
      ordered := by
    have hmergedPerm := (List.mergeSort_perm (byteCounts (applicationEntries household))
      fun a b => b.2 ≤ a.2).trans hperm
    exact List.Perm.eq_of_pairwise
      (fun a b ha hb => hdistinct a (hmergedPerm.mem_iff.1 ha) b hb)
      (pairwise_mergeSort_bytes _) hsorted hmergedPerm
  change ((byteCounts (applicationEntries household)).mergeSort _).take 10 = _
  rw [hmerged]
  rfl

/-- The bytes of both directions and of all stations are added up, and the two applications with
the fewest are left out. -/
theorem topApplications_iff_household :
    extractTopApplications .plain household = householdTop.map applicationJson ∧
      ∃ shown, extractTopApplications .plain household = shown.map applicationJson ∧
        IsTopTen (applicationEntries household) shown ∧
        (checkedCounts (applicationEntries household) []).isSome := by
  refine ⟨?_, (topApplications_iff fun counts => List.Perm.refl counts).2 fun name => ?_⟩
  · rw [extractTopApplications_eq, topApplications_household]
  · exact lt_of_le_of_lt (exactBytes_le_sum name _) (by decide)

/-- A station that reports these bytes of one application. -/
def streaming (tx rx : UInt64) : Json :=
  .obj [("by_app", .arr [.obj [("app", .str "video"), ("rx_bytes", .num (.posInt rx)),
    ("tx_bytes", .num (.posInt tx))]])]

theorem exactBytes_streaming (name : String) (tx rx : UInt64) :
    exactBytes name (applicationEntries [streaming tx rx]) =
      if name = "video" then tx.toNat + rx.toNat else 0 := by
  have hentries : applicationEntries [streaming tx rx] = [("video", tx, rx)] := rfl
  rw [hentries, exactBytes_cons]
  simp [exactBytes, eq_comm]

/-- One byte more than a word holds is listed as none at all. -/
theorem not_topApplications_streaming :
    extractTopApplications .plain [streaming 18446744073709551615 1] =
        [applicationJson ("video", 0)] ∧
      exactBytes "video" (applicationEntries [streaming 18446744073709551615 1]) = 2 ^ 64 ∧
      ¬ ∃ shown, extractTopApplications .plain [streaming 18446744073709551615 1] =
          shown.map applicationJson ∧
        IsTopTen (applicationEntries [streaming 18446744073709551615 1]) shown ∧
        (checkedCounts (applicationEntries [streaming 18446744073709551615 1]) []).isSome := by
  refine ⟨?_, ?_, ?_⟩
  · have hcounts : byteCounts (applicationEntries [streaming 18446744073709551615 1]) =
        [("video", 0)] := rfl
    rw [extractTopApplications_eq, topApplications, hcounts]
    have hsingle : Toolkit.plain.hashOrder [("video", 0)] = [("video", 0)] := rfl
    rw [hsingle, List.mergeSort_singleton]
    rfl
  · rw [exactBytes_streaming]
    rfl
  · rintro ⟨-, -, -, hsome⟩
    exact absurd hsome (by decide)

end UnifiMcp
