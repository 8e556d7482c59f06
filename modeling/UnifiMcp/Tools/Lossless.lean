import UnifiMcp.Tools.Restage

/-!
# Writing a policy as it was read

A firewall policy keeps the fields it has no name for, so reading one and writing it again
should change nothing.  `toJson_eq_iff` says when it does not: a policy without `predefined`
is written with one, and a `hits` that is `null` is left out.  Both sides are maps in the
order of their keys, so they are compared by what is found under each key: under a key of
the policy's own (`findEntry_own`), and under any other (`findEntry_rest`).
-/

namespace UnifiMcp

open Collections

/-! ## Reading one field -/

theorem findEntry_of_field {fields : List (String × Json)} {name : String} {v : Json}
    (h : field fields name = .ok v) : findEntry name fields = some v := by
  unfold field at h
  cases hfind : findEntry name fields with
  | none => simp [hfind] at h
  | some w => simpa [hfind] using h

theorem eq_str_of_decodeString {v : Json} {s : String} (h : decodeString v = .ok s) :
    v = .str s := by
  cases v with
  | str t => exact congrArg Json.str (Except.ok.inj h)
  | null | bool _ | num _ | arr _ | obj _ => cases h

theorem eq_bool_of_decodeBool {v : Json} {b : Bool} (h : decodeBool v = .ok b) :
    v = .bool b := by
  cases v with
  | bool t => exact congrArg Json.bool (Except.ok.inj h)
  | null | str _ | num _ | arr _ | obj _ => cases h

/-- A number that was read is the number it was read from, and fits its width. -/
theorem eq_num_of_decodeUnsigned {width : Nat} {type : String} {v : Json} {n : Nat}
    (h : decodeUnsigned width type v = .ok n) :
    n < 2 ^ width ∧ ∃ m : UInt64, m.toNat = n ∧ v = .num (.posInt m) := by
  cases v with
  | null | bool _ | str _ | arr _ | obj _ => cases h
  | num number =>
      cases number with
      | posInt m =>
          change (if m.toNat < 2 ^ width then Except.ok m.toNat else Except.error _) = _ at h
          split_ifs at h with hwidth
          obtain rfl : m.toNat = n := Except.ok.inj h
          exact ⟨hwidth, m, rfl, rfl⟩
      | negInt _ | float _ => cases h

theorem eq_num_of_decodeU32 {v : Json} {n : UInt32} (h : decodeU32 v = .ok n) :
    v = .num (.posInt n.toUInt64) := by
  obtain ⟨m, hm, rfl⟩ := map_eq_ok.1 h
  obtain ⟨hwidth, word, rfl, rfl⟩ := eq_num_of_decodeUnsigned hm
  have hword : (UInt32.ofNat word.toNat).toUInt64 = word := by
    apply UInt64.toNat.inj
    simp only [UInt32.toNat_toUInt64, UInt32.toNat_ofNat']
    omega
  rw [hword]

theorem eq_num_of_decodeU64 {v : Json} {n : UInt64} (h : decodeU64 v = .ok n) :
    v = .num (.posInt n) := by
  obtain ⟨m, hm, rfl⟩ := map_eq_ok.1 h
  obtain ⟨-, word, rfl, rfl⟩ := eq_num_of_decodeUnsigned hm
  simp

/-! ## What is found in a record -/

/-- Putting fields under names that are not taken keeps what is under the others. -/
theorem exists_foldl_fields (fields : List (String × Option Json)) (entries : List (String × Json))
    (hnames : (fields.map Prod.fst).Nodup) (hsorted : Ascending entries)
    (hfresh : ∀ field ∈ fields, findEntry field.1 entries = none) :
    ∃ entries', fields.foldl (fun entries (key, value) =>
        match value with
        | some v => insertEntry key v entries
        | none => entries) entries = entries' ∧ Ascending entries' ∧
      (∀ field ∈ fields, findEntry field.1 entries' = field.2) ∧
      ∀ key, key ∉ fields.map Prod.fst → findEntry key entries' = findEntry key entries := by
  induction fields generalizing entries with
  | nil => exact ⟨entries, rfl, hsorted, nofun, fun _ _ => rfl⟩
  | cons field rest ih =>
      obtain ⟨name, value⟩ := field
      rw [List.map_cons, List.nodup_cons] at hnames
      obtain ⟨hname, hrest⟩ := hnames
      obtain ⟨hhead, htail⟩ := List.forall_mem_cons.1 hfresh
      cases value with
      | none =>
          obtain ⟨entries', hfold, hsorted', hfound, hother⟩ := ih entries hrest hsorted htail
          refine ⟨entries', hfold, hsorted', ?_, ?_⟩
          · exact List.forall_mem_cons.2 ⟨(hother name hname).trans hhead, hfound⟩
          · intro key hkey
            exact hother key fun h => hkey (List.mem_cons_of_mem _ h)
      | some v =>
          have hne : ∀ field ∈ rest, field.1 ≠ name := fun field hfield heq =>
            hname (List.mem_map.2 ⟨field, hfield, heq⟩)
          have hfresh' : ∀ field ∈ rest, findEntry field.1 (insertEntry name v entries) = none :=
            fun field hfield =>
              (findEntry_insertEntry_of_ne (hne field hfield) v entries).trans
                (htail field hfield)
          obtain ⟨entries', hfold, hsorted', hfound, hother⟩ :=
            ih (insertEntry name v entries) hrest (hsorted.insertEntry name v) hfresh'
          refine ⟨entries', hfold, hsorted', ?_, ?_⟩
          · refine List.forall_mem_cons.2 ⟨?_, hfound⟩
            exact (hother name hname).trans (findEntry_insertEntry_self name v entries)
          · intro key hkey
            rw [List.map_cons, List.mem_cons, not_or] at hkey
            exact (hother key hkey.2).trans (findEntry_insertEntry_of_ne hkey.1 v entries)

/-- Under the name of a field a record has the field's value, and under any other nothing. -/
theorem exists_record (fields : List (String × Option Json))
    (hnames : (fields.map Prod.fst).Nodup) :
    ∃ entries, record fields = .obj entries ∧ Ascending entries ∧
      (∀ field ∈ fields, findEntry field.1 entries = field.2) ∧
      ∀ key, key ∉ fields.map Prod.fst → findEntry key entries = none := by
  obtain ⟨entries, hentries, hsorted, hfound, hother⟩ :=
    exists_foldl_fields fields [] hnames List.Pairwise.nil fun _ _ => rfl
  exact ⟨entries, congrArg Json.obj hentries, hsorted, hfound, hother⟩

/-! ## What a policy is written with -/

namespace FirewallPolicy

/-- The fields a policy has of its own, as they are written. -/
def own (p : FirewallPolicy) : List (String × Option Json) :=
  [("_id", some (.str p.id)), ("name", some (.str p.name)), ("action", some (.str p.action)),
    ("enabled", some (.bool p.enabled)), ("index", some (.num (.posInt p.index.toUInt64))),
    ("predefined", some (.bool p.predefined)),
    ("hits", p.hits.map fun hits => .num (.posInt hits))]

theorem map_fst_own (p : FirewallPolicy) : p.own.map Prod.fst = named := rfl

variable {entries : List (String × Json)} {p : FirewallPolicy}

/-- The fields that have to be there are written as they were read. -/
theorem findEntry_required (h : ofJson (.obj entries) = .ok p) :
    ∀ field ∈ p.own.take 5, findEntry field.1 entries = field.2 := by
  unfold ofJson at h
  simp only [bind_eq_ok] at h
  obtain ⟨fields, hfields, v₁, h₁, id, hid, v₂, h₂, name, hname, v₃, h₃, action, haction, v₄, h₄,
    enabled, henabled, v₅, h₅, index, hindex, _, -, _, -, hp⟩ := h
  obtain ⟨-, -, hpure⟩ := bind_eq_ok.1 hfields
  cases hpure
  cases hp
  cases eq_str_of_decodeString hid
  cases eq_str_of_decodeString hname
  cases eq_str_of_decodeString haction
  cases eq_bool_of_decodeBool henabled
  cases eq_num_of_decodeU32 hindex
  simp [own, findEntry_of_field h₁, findEntry_of_field h₂, findEntry_of_field h₃,
    findEntry_of_field h₄, findEntry_of_field h₅]

/-- `predefined` is written as it was read if it was there. -/
theorem findEntry_predefined (h : ofJson (.obj entries) = .ok p)
    (hpresent : findEntry "predefined" entries ≠ none) :
    findEntry "predefined" entries = some (.bool p.predefined) := by
  unfold ofJson at h
  simp only [bind_eq_ok] at h
  obtain ⟨fields, hfields, _, -, _, -, _, -, _, -, _, -, _, -, _, -, _, -, _, -, _, -, predefined,
    hpredefined, _, -, hp⟩ := h
  obtain ⟨-, -, hpure⟩ := bind_eq_ok.1 hfields
  cases hpure
  cases hp
  unfold defaultField at hpredefined
  cases hfind : findEntry "predefined" entries with
  | none => exact absurd hfind hpresent
  | some v =>
      rw [hfind] at hpredefined
      cases eq_bool_of_decodeBool hpredefined
      rfl

/-- `hits` is written as it was read unless it was `null`. -/
theorem findEntry_hits (h : ofJson (.obj entries) = .ok p)
    (hnull : findEntry "hits" entries ≠ some .null) :
    findEntry "hits" entries = p.hits.map fun hits => .num (.posInt hits) := by
  obtain ⟨hhits, -⟩ := ofJson_eq_ok h
  unfold optionalField at hhits
  cases hfind : findEntry "hits" entries with
  | none =>
      rw [hfind] at hhits
      have hnone : none = p.hits := Except.ok.inj hhits
      rw [← hnone]
      rfl
  | some v =>
      rw [hfind] at hhits hnull
      have hdecode : (decodeU64 v).map some = .ok p.hits := by
        cases v with
        | null => exact absurd rfl hnull
        | bool _ | num _ | str _ | arr _ | obj _ => exact hhits
      obtain ⟨n, hn, hp⟩ := map_eq_ok.1 hdecode
      rw [← hp, eq_num_of_decodeU64 hn]
      rfl

/-- A field that is not the policy's own is kept. -/
theorem findEntry_rest (h : ofJson (.obj entries) = .ok p) {key : String} (hkey : key ∉ named) :
    findEntry key p.rest = findEntry key entries := by
  obtain ⟨-, hrest⟩ := ofJson_eq_ok h
  rw [hrest, findEntry_filter fun key => !named.contains key, if_pos (by simpa using hkey)]

/-- A policy is written with its own fields and those that were kept. -/
theorem exists_toJson (h : ofJson (.obj entries) = .ok p) (hsorted : Ascending entries) :
    ∃ shown, p.toJson = .obj shown ∧ Ascending shown ∧
      (∀ field ∈ p.own, findEntry field.1 shown = field.2) ∧
      ∀ key, key ∉ named → findEntry key shown = findEntry key entries := by
  obtain ⟨-, hrest⟩ := ofJson_eq_ok h
  have hkept : Ascending p.rest := hrest ▸ hsorted.filter _
  have hnames : (p.own ++ p.rest.map fun e => (e.1, some e.2)).map Prod.fst =
      named ++ keys p.rest := by
    rw [List.map_append, map_fst_own, List.map_map]
    rfl
  have hkeys : ∀ key ∈ keys p.rest, key ∉ named := by
    rw [hrest, keys_filter fun key => !named.contains key]
    intro key hkey
    simpa using (List.mem_filter.1 hkey).2
  have hnodup : ((p.own ++ p.rest.map fun e => (e.1, some e.2)).map Prod.fst).Nodup := by
    rw [hnames]
    have hown : named.Nodup := by decide
    have hrest : (keys p.rest).Nodup := (List.pairwise_map.2 hkept).imp fun hlt => hlt.ne
    refine List.nodup_append.2 ⟨hown, hrest, ?_⟩
    rintro key hkey _ hkey' rfl
    exact hkeys key hkey' hkey
  obtain ⟨shown, hshown, hsorted', hfound, hother⟩ := exists_record _ hnodup
  refine ⟨shown, hshown, hsorted', ?_, ?_⟩
  · exact fun field hfield => hfound field (List.mem_append_left _ hfield)
  · intro key hkey
    rw [← findEntry_rest h hkey]
    cases hfind : findEntry key p.rest with
    | none =>
        refine hother key ?_
        rw [hnames, List.mem_append, not_or]
        exact ⟨hkey, findEntry_eq_none.1 hfind⟩
    | some v =>
        have hmem : (key, some v) ∈ p.rest.map fun e => (e.1, some e.2) :=
          List.mem_map.2 ⟨(key, v), hkept.mem_iff.2 hfind, rfl⟩
        exact hfound _ (List.mem_append_right _ hmem)

end FirewallPolicy

/-! ## Which policies come back as they were -/

open FirewallPolicy

/-- The policy says whether it is predefined, and does not say `null` for its hits. -/
structure WritesBack (entries : List (String × Json)) : Prop where
  predefined : findEntry "predefined" entries ≠ none
  hits : findEntry "hits" entries ≠ some .null

/-- **Which policies survive being read and written.**  An object that is read as a policy is
written as it was exactly when it has the field `predefined` and no `hits` that is `null`. -/
theorem toJson_eq_iff {entries : List (String × Json)} {p : FirewallPolicy}
    (hsorted : Ascending entries) (hparse : FirewallPolicy.ofJson (.obj entries) = .ok p) :
    p.toJson = .obj entries ↔ WritesBack entries := by
  obtain ⟨shown, hshown, hsorted', hown, hother⟩ := exists_toJson hparse hsorted
  have hpredefined : findEntry "predefined" shown = some (.bool p.predefined) :=
    hown ("predefined", some (.bool p.predefined)) (by simp [own])
  have hhits : findEntry "hits" shown = p.hits.map fun hits => .num (.posInt hits) :=
    hown ("hits", p.hits.map fun hits => .num (.posInt hits)) (by simp [own])
  rw [hshown, Json.obj.injEq]
  constructor
  · rintro rfl
    refine ⟨?_, ?_⟩
    · simp [hpredefined]
    · rw [hhits]
      cases p.hits <;> simp
  · intro h
    refine hsorted'.ext hsorted fun key => ?_
    by_cases hkey : key ∈ named
    · obtain ⟨field, hfield, rfl⟩ := List.mem_map.1 (p.map_fst_own ▸ hkey)
      rw [hown field hfield]
      rw [← List.take_append_drop 5 p.own] at hfield
      rcases List.mem_append.1 hfield with hrequired | hoptional
      · exact (findEntry_required hparse field hrequired).symm
      · have hlast : field = ("predefined", some (.bool p.predefined)) ∨
            field = ("hits", p.hits.map fun hits => .num (.posInt hits)) := by
          simpa [own] using hoptional
        rcases hlast with rfl | rfl
        · exact (findEntry_predefined hparse h.predefined).symm
        · exact (findEntry_hits hparse h.hits).symm
    · exact hother key hkey

/-- A policy as it was recorded survives. -/
theorem toJson_eq_iff_recorded :
    ∃ p, FirewallPolicy.ofJson (.obj (insertEntry "predefined" (.bool false) phonesToWeb)) =
        .ok p ∧ p.toJson = .obj (insertEntry "predefined" (.bool false) phonesToWeb) := by
  obtain ⟨p, hparse⟩ : ∃ p, FirewallPolicy.ofJson
      (.obj (insertEntry "predefined" (.bool false) phonesToWeb)) = .ok p := ⟨_, rfl⟩
  have hsorted : Ascending (insertEntry "predefined" (.bool false) phonesToWeb) := by
    unfold Ascending
    decide
  exact ⟨p, hparse, (toJson_eq_iff hsorted hparse).2 ⟨by decide, by decide⟩⟩

/-- A policy that does not say whether it is predefined comes back with a field more. -/
theorem not_toJson_eq_phonesToWeb :
    Ascending phonesToWeb ∧ ∃ p, FirewallPolicy.ofJson (.obj phonesToWeb) = .ok p ∧
      p.toJson ≠ .obj phonesToWeb := by
  refine ⟨by unfold Ascending; decide, _, rfl, fun h => ?_⟩
  have hfind := congrArg (fun v => v.get? "predefined") h
  exact absurd hfind nofun

end UnifiMcp
