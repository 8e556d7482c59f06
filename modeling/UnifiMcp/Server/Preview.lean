import UnifiMcp.Changeset.Diff
import UnifiMcp.Collections.Mapped
import UnifiMcp.Json.Size
import UnifiMcp.Server.MemoryStore
import UnifiMcp.Tools.Workflow

/-!
# Room for a preview

The preview an approver signs off on holds the description, so a long description leaves no room
for a plan.  `unifi_create_change_set` renders the preview of no changes and refuses what comes to
the bound or over it, while `check_plan_limits` measures the preview of the staged plan.  One
change adds `leastChangeBytes` at the least, whatever it is (`prettySize_changes_ge`), and a
description that leaves less than that has been given an id that no plan can be staged under:
`draftHasRoom_iff`.
-/

namespace UnifiMcp

open Interaction Collections

/-! ## The preview -/

/-- What UniFi can guarantee about applying a change set: none of the three. -/
def atomicityJson : Json :=
  .obj [("atomic_apply", .bool false), ("dry_run_validation", .bool false),
    ("guaranteed_rollback", .bool false),
    ("note", .str ("UniFi writes directly to running state: a partial apply is " ++
      "reachable and rollback is best-effort"))]

/-- The preview of a plan whose changes these are. -/
def previewJson (controller description : String) (stagedCount : Nat) (changes : List Change) :
    Json :=
  .obj [("atomicity", atomicityJson), ("changes", .arr (changes.map Change.toJson)),
    ("controller", .str controller), ("description", .str description),
    ("staged_count", .ofNat stagedCount)]

/-- Render the preview an approver signs off on. -/
def renderPreview (number : Number → String) (r : Redactor) (controller description : String)
    (mutations : List StagedMutation) (preimage : Preimage) : Except String String := do
  let diff ← (diffAgainstPreimage r preimage mutations).mapError fun e =>
    s!"failed to compute diff: {e.toString}"
  pure ((previewJson controller description mutations.length diff.changes).pretty number 0)

/-- The bytes of the controller's name and of the description in a preview. -/
def namedBytes (controller description : String) : Nat :=
  (Json.quoted controller).utf8ByteSize + (Json.quoted description).utf8ByteSize

/-- Some plan that is not empty has a preview within the bound of `checkPlanLimits`. -/
def UnifiServer.HasRoom (server : UnifiServer) (controller description : String) : Prop :=
  ∃ mutations preimage artifact, mutations ≠ [] ∧
    server.renderPreview controller description mutations preimage = .ok artifact ∧
    artifact.utf8ByteSize ≤ maxPreviewBytes

/-- The bytes of an empty plan's preview, besides the two names. -/
def emptyPreviewBytes : Nat := 304

/-- The bytes that a plan adds at the least which is not empty. -/
def leastChangeBytes : Nat := 183

/-- The two names are too long for the preview of an empty plan, or they leave the bytes that one
change takes. -/
def LeavesRoom (controller description : String) : Prop :=
  maxPreviewBytes ≤ namedBytes controller description + emptyPreviewBytes ∨
    namedBytes controller description + emptyPreviewBytes + leastChangeBytes ≤ maxPreviewBytes

variable {number : Number → String} {r : Redactor}

/-! ## The bytes of a preview -/

theorem prettySize_atomicityJson : atomicityJson.prettySize number 1 = 210 := by
  have happly : (Json.quoted "atomic_apply").utf8ByteSize = 14 := by decide
  have hdry : (Json.quoted "dry_run_validation").utf8ByteSize = 20 := by decide
  have hrollback : (Json.quoted "guaranteed_rollback").utf8ByteSize = 21 := by decide
  have hnote : (Json.quoted "note").utf8ByteSize = 6 := by decide
  have htext : (Json.quoted ("UniFi writes directly to running state: a partial apply is " ++
      "reachable and rollback is best-effort")).utf8ByteSize = 98 :=
    (show Json.Plain _ by decide).utf8ByteSize_quoted
  unfold atomicityJson
  simp only [Json.prettySize_obj_cons, Json.fieldSize, Json.prettySize_str,
    Json.prettySize_false, List.map_cons, List.map_nil, List.sum_cons, List.sum_nil, happly,
    hdry, hrollback, hnote, htext]
  omega

/-- Besides the two names, the changes and their count, a preview takes 301 bytes. -/
theorem prettySize_previewJson (controller description : String) (stagedCount : Nat)
    (changes : List Change) :
    (previewJson controller description stagedCount changes).prettySize number 0 =
      namedBytes controller description + 301 +
        (Json.arr (changes.map Change.toJson)).prettySize number 1 +
        (Json.ofNat stagedCount).prettySize number 1 := by
  have hatomicity : (Json.quoted "atomicity").utf8ByteSize = 11 := by decide
  have hchanges : (Json.quoted "changes").utf8ByteSize = 9 := by decide
  have hcontroller : (Json.quoted "controller").utf8ByteSize = 12 := by decide
  have hdescription : (Json.quoted "description").utf8ByteSize = 13 := by decide
  have hcount : (Json.quoted "staged_count").utf8ByteSize = 14 := by decide
  unfold previewJson namedBytes
  simp only [Json.prettySize_obj_cons, Json.fieldSize, Json.prettySize_str, List.map_cons,
    List.map_nil, List.sum_cons, List.sum_nil, zero_add, prettySize_atomicityJson, hatomicity,
    hchanges, hcontroller, hdescription, hcount]
  omega

theorem prettySize_change (change : Change) :
    change.toJson.prettySize number 2 =
      80 + (Json.ofOption change.after).prettySize number 3 +
        (Json.ofOption change.before).prettySize number 3 +
        change.mutation.toJson.prettySize number 3 + (Json.quoted change.preview).utf8ByteSize := by
  have hafter : (Json.quoted "after").utf8ByteSize = 7 := by decide
  have hbefore : (Json.quoted "before").utf8ByteSize = 8 := by decide
  have hmutation : (Json.quoted "mutation").utf8ByteSize = 10 := by decide
  have hpreview : (Json.quoted "preview").utf8ByteSize = 9 := by decide
  unfold Change.toJson
  simp only [Json.prettySize_obj_cons, Json.fieldSize, Json.prettySize_str, List.map_cons,
    List.map_nil, List.sum_cons, List.sum_nil, Nat.reduceAdd, hafter, hbefore, hmutation, hpreview]
  omega

/-! ## The bytes of one change -/

/-- A mutation takes its name, the fields under it and two pairs of braces. -/
theorem prettySize_variant (name : String) (e : String × Json) (fields : List (String × Json)) :
    (Json.obj [(name, .obj (e :: fields))]).prettySize number 3 =
      30 + (Json.quoted name).utf8ByteSize +
        ((e :: fields).map (Json.fieldSize number 4)).sum := by
  have hvalue : (Json.obj (e :: fields)).prettySize number 4 =
      ((e :: fields).map (Json.fieldSize number 4)).sum + 10 := Json.prettySize_obj_cons e fields
  have hfield : Json.fieldSize number 3 (name, .obj (e :: fields)) =
      12 + (Json.quoted name).utf8ByteSize + (Json.obj (e :: fields)).prettySize number 4 := rfl
  rw [Json.prettySize_obj_cons, List.map_cons, List.map_nil, List.sum_cons, List.sum_nil, hfield,
    hvalue]
  omega

theorem fieldSize_kind (kind : String) :
    Json.fieldSize number 4 ("kind", .str kind) = 20 + (Json.quoted kind).utf8ByteSize := by
  have hkey : (Json.quoted "kind").utf8ByteSize = 6 := by decide
  unfold Json.fieldSize
  rw [hkey, Json.prettySize_str]

theorem fieldSize_id (id : String) :
    Json.fieldSize number 4 ("id", .str id) = 18 + (Json.quoted id).utf8ByteSize := by
  have hkey : (Json.quoted "id").utf8ByteSize = 4 := by decide
  unfold Json.fieldSize
  rw [hkey, Json.prettySize_str]

theorem fieldSize_body (body : Json) :
    Json.fieldSize number 4 ("body", body) = 20 + body.prettySize number 5 := by
  have hkey : (Json.quoted "body").utf8ByteSize = 6 := by decide
  unfold Json.fieldSize
  rw [hkey]

theorem prettySize_create (kind : String) (body : Json) :
    (StagedMutation.create kind body).toJson.prettySize number 3 =
      78 + (Json.quoted kind).utf8ByteSize + body.prettySize number 5 := by
  have hcreate : (Json.quoted "Create").utf8ByteSize = 8 := by decide
  unfold StagedMutation.toJson
  rw [prettySize_variant, List.map_cons, List.map_cons, List.map_nil, List.sum_cons,
    List.sum_cons, List.sum_nil, fieldSize_body, fieldSize_kind, hcreate]
  omega

theorem prettySize_update (kind id : String) (body : Json) :
    (StagedMutation.update kind id body).toJson.prettySize number 3 =
      96 + (Json.quoted kind).utf8ByteSize + (Json.quoted id).utf8ByteSize +
        body.prettySize number 5 := by
  have hupdate : (Json.quoted "Update").utf8ByteSize = 8 := by decide
  unfold StagedMutation.toJson
  rw [prettySize_variant, List.map_cons, List.map_cons, List.map_cons, List.map_nil,
    List.sum_cons, List.sum_cons, List.sum_cons, List.sum_nil, fieldSize_body, fieldSize_id,
    fieldSize_kind, hupdate]
  omega

theorem prettySize_delete (kind id : String) :
    (StagedMutation.delete kind id).toJson.prettySize number 3 =
      76 + (Json.quoted kind).utf8ByteSize + (Json.quoted id).utf8ByteSize := by
  have hdelete : (Json.quoted "Delete").utf8ByteSize = 8 := by decide
  unfold StagedMutation.toJson
  rw [prettySize_variant, List.map_cons, List.map_cons, List.map_nil, List.sum_cons,
    List.sum_cons, List.sum_nil, fieldSize_id, fieldSize_kind, hdelete]
  omega

theorem prettySize_restore (backupId : String) :
    (StagedMutation.restore backupId).toJson.prettySize number 3 =
      64 + (Json.quoted backupId).utf8ByteSize := by
  have hrestore : (Json.quoted "Restore").utf8ByteSize = 9 := by decide
  have hbackup : (Json.quoted "backup_id").utf8ByteSize = 11 := by decide
  unfold StagedMutation.toJson
  rw [prettySize_variant, List.map_cons, List.map_nil, List.sum_cons, List.sum_nil, hrestore]
  unfold Json.fieldSize
  rw [hbackup, Json.prettySize_str]
  omega

theorem quoted_create_ge (kind : String) :
    9 ≤ (Json.quoted ("create " ++ kind)).utf8ByteSize := by
  have hcreate : (Json.quoted "create ").utf8ByteSize = 9 := by decide
  have hkind := Json.two_le_utf8ByteSize_quoted kind
  have happend := Json.utf8ByteSize_quoted_append "create " kind
  omega

theorem quoted_delete_ge (kind id : String) :
    10 ≤ (Json.quoted ("delete " ++ kind ++ " " ++ id)).utf8ByteSize := by
  have hdelete : (Json.quoted "delete ").utf8ByteSize = 9 := by decide
  have hblank : (Json.quoted " ").utf8ByteSize = 3 := by decide
  have hkind := Json.two_le_utf8ByteSize_quoted kind
  have hid := Json.two_le_utf8ByteSize_quoted id
  have happend := Json.utf8ByteSize_quoted_append "delete " kind
  have happend' := Json.utf8ByteSize_quoted_append ("delete " ++ kind) " "
  have happend'' := Json.utf8ByteSize_quoted_append ("delete " ++ kind ++ " ") id
  omega

/-- One change takes 175 bytes at the least, whatever is shown before and after it. -/
theorem prettySize_change_ge (hnumber : ∀ n, 0 < (number n).utf8ByteSize) (preimage : Preimage)
    (m : StagedMutation) : 175 ≤ (changeOf r preimage m).toJson.prettySize number 2 := by
  have hvalue : ∀ (depth : Nat) (v : Json), 0 < v.prettySize number depth := fun _ v =>
    Json.prettySize_pos hnumber v
  have hquoted := Json.two_le_utf8ByteSize_quoted
  rw [prettySize_change]
  cases m with
  | create kind body =>
      show 175 ≤ 80 + (r.projectByKindName kind body).prettySize number 3 + 4 +
        (StagedMutation.create kind body).toJson.prettySize number 3 +
        (Json.quoted ("create " ++ kind)).utf8ByteSize
      rw [prettySize_create]
      have hafter := hvalue 3 (r.projectByKindName kind body)
      have hbody := hvalue 5 body
      have hkind := hquoted kind
      have hpreview := quoted_create_ge kind
      omega
  | update kind id body =>
      show 175 ≤ 80 + (r.projectByKindName kind body).prettySize number 3 +
        (Json.ofOption ((preimage.getResource id).map (r.projectByKindName kind))).prettySize
          number 3 +
        (StagedMutation.update kind id body).toJson.prettySize number 3 +
        (Json.quoted (StagedMutation.update kind id body).preview).utf8ByteSize
      rw [prettySize_update]
      have hkind := hquoted kind
      have hid := hquoted id
      omega
  | delete kind id =>
      show 175 ≤ 80 + 4 +
        (Json.ofOption ((preimage.getResource id).map (r.projectByKindName kind))).prettySize
          number 3 +
        (StagedMutation.delete kind id).toJson.prettySize number 3 +
        (Json.quoted ("delete " ++ kind ++ " " ++ id)).utf8ByteSize
      rw [prettySize_delete]
      have hbefore := hvalue 3
        (.ofOption ((preimage.getResource id).map (r.projectByKindName kind)))
      have hkind := hquoted kind
      have hid := hquoted id
      have hpreview := quoted_delete_ge kind id
      omega
  | restore backupId =>
      show 175 ≤ 80 + (Json.obj [("backup_id", .str backupId)]).prettySize number 3 + 4 +
        (StagedMutation.restore backupId).toJson.prettySize number 3 +
        (Json.quoted (StagedMutation.restore backupId).preview).utf8ByteSize
      have hbackup : (Json.quoted "backup_id").utf8ByteSize = 11 := by decide
      rw [prettySize_restore, Json.prettySize_obj_cons]
      simp only [Json.fieldSize, Json.prettySize_str, List.map_cons, List.map_nil, List.sum_cons,
        List.sum_nil, hbackup]
      have hid := hquoted backupId
      omega

/-- The changes of a plan that is not empty take 10 bytes more than one of them. -/
theorem prettySize_changes_ge (hnumber : ∀ n, 0 < (number n).utf8ByteSize) (preimage : Preimage)
    {mutations : List StagedMutation} (h : mutations ≠ []) :
    185 ≤ (Json.arr ((mutations.map (changeOf r preimage)).map Change.toJson)).prettySize
      number 1 := by
  obtain ⟨m, rest, rfl⟩ := List.exists_cons_of_ne_nil h
  have hfirst := prettySize_change_ge (r := r) hnumber preimage m
  have hitem : Json.itemSize number 1 (changeOf r preimage m).toJson =
      6 + (changeOf r preimage m).toJson.prettySize number 2 := rfl
  rw [List.map_cons, List.map_cons, Json.prettySize_arr_cons, List.map_cons, List.sum_cons, hitem]
  omega

/-- The creation of a number is as small as a change can be. -/
theorem prettySize_changeOf_number (hnumber : Json.DecimalIntegers number)
    (hredact : r.redactJsonValue (.num (.posInt 0)) = .num (.posInt 0)) (preimage : Preimage) :
    (changeOf r preimage (.create "" (.num (.posInt 0)))).toJson.prettySize number 2 = 175 := by
  have hzero : ∀ depth, (Json.num (.posInt 0)).prettySize number depth = 1 := by
    intro depth
    show (number (.posInt 0)).utf8ByteSize = 1
    rw [hnumber]
    decide
  have hkind : (Json.quoted "").utf8ByteSize = 2 := by decide
  have hpreview : (Json.quoted ("create " ++ "")).utf8ByteSize = 9 := by decide
  have hunknown : ∃ e, ResourceKind.parse "" = .error e := ⟨_, rfl⟩
  have hshown : r.projectByKindName "" (.num (.posInt 0)) = .num (.posInt 0) := by
    obtain ⟨e, he⟩ := hunknown
    unfold Redactor.projectByKindName
    rw [he]
    exact hredact
  rw [prettySize_change]
  show 80 + (r.projectByKindName "" (.num (.posInt 0))).prettySize number 3 + 4 +
    (StagedMutation.create "" (.num (.posInt 0))).toJson.prettySize number 3 +
    (Json.quoted ("create " ++ "")).utf8ByteSize = 175
  rw [hshown, prettySize_create, hzero, hzero, hkind, hpreview]

/-! ## What a bound leaves room for -/

section Room

variable {server : UnifiServer}

/-- The server renders previews as the source does; `serde_json` writes every number, unsigned
integers in decimal; and the redaction leaves a number alone. -/
structure UnifiServer.RendersPreviews (server : UnifiServer) (r : Redactor) : Prop where
  renders : server.renderPreview = UnifiMcp.renderPreview server.mecmcp.number r
  decimal : Json.DecimalIntegers server.mecmcp.number
  written : ∀ n, 0 < (server.mecmcp.number n).utf8ByteSize
  unredacted : r.redactJsonValue (.num (.posInt 0)) = .num (.posInt 0)

theorem renderPreview_eq (controller description : String) (mutations : List StagedMutation)
    (preimage : Preimage) :
    renderPreview number r controller description mutations preimage =
      .ok ((previewJson controller description mutations.length
        (mutations.map (changeOf r preimage))).pretty number 0) := rfl

/-- The preview of an empty plan. -/
theorem prettySize_preview_empty (hnumber : Json.DecimalIntegers number)
    (controller description : String) :
    (previewJson controller description 0 []).prettySize number 0 =
      namedBytes controller description + emptyPreviewBytes := by
  have hcount : (Json.ofNat 0).prettySize number 1 = 1 := by
    show (number (.posInt 0)).utf8ByteSize = 1
    rw [hnumber]
    decide
  rw [prettySize_previewJson, List.map_nil, Json.prettySize_arr_nil, hcount]
  unfold emptyPreviewBytes
  omega

/-- A plan that is not empty adds to it. -/
theorem prettySize_preview_ge (hsome : ∀ n, 0 < (number n).utf8ByteSize)
    (controller description : String) (preimage : Preimage) {mutations : List StagedMutation}
    (h : mutations ≠ []) :
    namedBytes controller description + emptyPreviewBytes + leastChangeBytes ≤
      (previewJson controller description mutations.length
        (mutations.map (changeOf r preimage))).prettySize number 0 := by
  have hchanges := prettySize_changes_ge (r := r) hsome preimage h
  have hcount : 0 < (Json.ofNat mutations.length).prettySize number 1 :=
    Json.prettySize_pos hsome _
  rw [prettySize_previewJson]
  unfold emptyPreviewBytes leastChangeBytes
  omega

/-- The plan that creates a number adds no more. -/
theorem prettySize_preview_number (hnumber : Json.DecimalIntegers number)
    (hredact : r.redactJsonValue (.num (.posInt 0)) = .num (.posInt 0))
    (controller description : String) (preimage : Preimage) :
    (previewJson controller description 1
        [changeOf r preimage (.create "" (.num (.posInt 0)))]).prettySize number 0 =
      namedBytes controller description + emptyPreviewBytes + leastChangeBytes := by
  have hcount : (Json.ofNat 1).prettySize number 1 = 1 := by
    show (number (.posInt 1)).utf8ByteSize = 1
    rw [hnumber]
    decide
  have hitem : Json.itemSize number 1
      (changeOf r preimage (.create "" (.num (.posInt 0)))).toJson = 6 + 175 :=
    congrArg (6 + ·) (prettySize_changeOf_number hnumber hredact preimage)
  rw [prettySize_previewJson, List.map_cons, List.map_nil, Json.prettySize_arr_cons, hcount,
    List.map_cons, List.map_nil, List.sum_cons, List.sum_nil, hitem]
  unfold emptyPreviewBytes leastChangeBytes
  omega

/-- There is room for a plan if and only if the smallest change fits. -/
theorem hasRoom_iff (hserver : server.RendersPreviews r) (controller description : String) :
    server.HasRoom controller description ↔
      namedBytes controller description + emptyPreviewBytes + leastChangeBytes ≤
        maxPreviewBytes := by
  unfold UnifiServer.HasRoom
  rw [hserver.renders]
  constructor
  · rintro ⟨mutations, preimage, artifact, hne, hartifact, hfits⟩
    rw [renderPreview_eq, Except.ok.injEq] at hartifact
    rw [← hartifact] at hfits
    exact le_trans (prettySize_preview_ge hserver.written controller description preimage hne) hfits
  · intro hfits
    refine ⟨[.create "" (.num (.posInt 0))], .fromResources [], _, List.cons_ne_nil _ _,
      renderPreview_eq _ _ _ _, ?_⟩
    exact le_trans (prettySize_preview_number hserver.decimal hserver.unredacted controller
      description _).le hfits

/-- A plan within the limits has had room. -/
theorem hasRoom_of_withPlan {record staged : ChangeSetRecord} {mutations : List StagedMutation}
    {preimage : Preimage} {description : String} (hne : mutations ≠ [])
    (hplan : server.withPlan record mutations preimage description = .ok staged)
    (hlimits : server.checkPlanLimits staged = .ok ()) :
    server.HasRoom record.device description := by
  unfold UnifiServer.withPlan at hplan
  obtain ⟨artifact, hartifact, hplan⟩ := bind_eq_ok.1 hplan
  obtain ⟨digest, -, hplan⟩ := bind_eq_ok.1 hplan
  cases hplan
  refine ⟨mutations, preimage, artifact, hne, hartifact, ?_⟩
  unfold UnifiServer.checkPlanLimits at hlimits
  obtain ⟨-, -, hlimits⟩ := bind_eq_ok.1 hlimits
  dsimp only at hlimits
  by_contra hover
  rw [if_pos (by omega)] at hlimits
  cases hlimits

/-! ## Which descriptions are accepted -/

/-- What creating a change set asks where nothing is in its way. -/
def createTrace (server : UnifiServer) (caller : Option CallerCtx) (args : CreateChangeSetArgs)
    (client : UnifiClient) : List (Event ServerSig) :=
  [⟨.clientFor args.controller, .ok (some client)⟩, ⟨.newChangeSetId, "cs-1"⟩, nowEvent 0,
    coordinatorEvent .changeSets [], nowEvent 0,
    holdDraftEvent "cs-1" ⟨args.controller, principal caller, args.description, 0⟩ 0
      server.approvalTtl]

/-- The preview of an empty plan is rendered. -/
theorem exists_smallest (hserver : server.RendersPreviews r) (args : CreateChangeSetArgs) :
    ∃ smallest, server.renderPreview args.controller args.description []
        (.fromResources []) = .ok smallest ∧
      smallest.utf8ByteSize =
        namedBytes args.controller args.description + emptyPreviewBytes := by
  rw [hserver.renders]
  exact ⟨_, renderPreview_eq _ _ _ _, prettySize_preview_empty hserver.decimal _ _⟩

variable {caller : Option CallerCtx} {args : CreateChangeSetArgs}

/-- A description that is accepted is one whose empty preview is below the bound. -/
theorem lt_of_gives_create {smallest : String} {t : List (Event ServerSig)} {v : Json}
    (hsmallest : server.renderPreview args.controller args.description []
      (.fromResources []) = .ok smallest)
    (h : (server.unifiCreateChangeSet caller args).Gives t (.ok v)) :
    smallest.utf8ByteSize < maxPreviewBytes := by
  unfold UnifiServer.unifiCreateChangeSet at h
  obtain ⟨_, _, _, -, -, hauthorized⟩ := Fallible.gives_bind_ok.1 h
  obtain ⟨_, _, client, -, -, hclient⟩ := Fallible.gives_bind_ok.1 hauthorized
  rw [hsmallest, Fallible.ofExcept_ok_bind] at hclient
  by_contra hover
  rw [if_pos (by omega), Fallible.throw_bind] at hclient
  cases (Fallible.gives_throw.1 hclient).2

/-- A description whose empty preview is below the bound is accepted. -/
theorem exists_gives_create {smallest : String}
    (hcaller : server.mecmcp.authorizeCall caller "unifi_create_change_set"
      (some args.controller) = .ok ())
    (hsmallest : server.renderPreview args.controller args.description []
      (.fromResources []) = .ok smallest)
    (hbelow : smallest.utf8ByteSize < maxPreviewBytes) (client : UnifiClient) :
    ∃ v, (server.unifiCreateChangeSet caller args).Gives
      (createTrace server caller args client) (.ok v) := by
  unfold UnifiServer.unifiCreateChangeSet UnifiServer.authorize
  rw [hcaller, hsmallest, Fallible.ofExcept_ok_bind]
  simp only [if_neg (show ¬ smallest.utf8ByteSize ≥ maxPreviewBytes by omega),
    Fallible.ofExcept_ok_bind]
  exact ⟨_, .ok (some client), _, rfl, "cs-1", _, rfl, 0, _, rfl, [], _, rfl, 0, _, rfl,
    .ok (.ok ()), _, rfl, rfl, rfl⟩

/-- A controller as the inventory may hold it. -/
def homeClient : UnifiClient where
  controller :=
    ⟨"https://unifi.example.org", "default", some "UNIFI_API_KEY", none, none, false, false⟩
  expandPath _ _ := .ok "/proxy/network/integration/v1/sites"

/-- **When an accepted description has room.**  Whatever a caller is given an id for leaves room
for a plan if and only if the two names come to the bound with the preview of an empty plan, and
are refused, or stay below it by the bytes of one change. -/
theorem draftHasRoom_iff (hserver : server.RendersPreviews r)
    (hcaller : server.mecmcp.authorizeCall caller "unifi_create_change_set"
      (some args.controller) = .ok ()) :
    (∀ t v, (server.unifiCreateChangeSet caller args).Gives t (.ok v) →
        server.HasRoom args.controller args.description) ↔
      LeavesRoom args.controller args.description := by
  have hroom := hasRoom_iff hserver args.controller args.description
  obtain ⟨smallest, hsmallest, hsize⟩ := exists_smallest hserver args
  rw [hroom]
  constructor
  · intro h
    by_cases hbelow : smallest.utf8ByteSize < maxPreviewBytes
    · obtain ⟨v, hgives⟩ := exists_gives_create hcaller hsmallest hbelow homeClient
      exact .inr (h _ v hgives)
    · exact .inl (by omega)
  · rintro (hrefused | hfits) t v hgives
    · have hbelow := lt_of_gives_create hsmallest hgives
      omega
    · exact hfits

end Room

/-! ## A description one byte short of the bound -/

/-- A server that renders previews with the numbers of `plainNumber` and redacts nothing. -/
def previewServer : UnifiServer :=
  { plainServer with
    mecmcp := { plainMecmcp with number := plainNumber }
    renderPreview := renderPreview plainNumber keepingRedactor }

theorem plainNumber_pos (n : Number) : 0 < (plainNumber n).utf8ByteSize := by
  have hnat : ∀ m : Nat, 0 < m.repr.utf8ByteSize := fun m =>
    lt_of_lt_of_le (show 0 < (0 : Nat).repr.utf8ByteSize by decide)
      (Json.utf8ByteSize_repr_le (Nat.zero_le m))
  cases n with
  | posInt m => exact hnat m.toNat
  | negInt m =>
      show 0 < (toString m.toInt).utf8ByteSize
      cases m.toInt with
      | ofNat k => exact hnat k
      | negSucc k =>
          show 0 < ("-" ++ (k + 1).repr).utf8ByteSize
          rw [String.utf8ByteSize_append]
          exact Nat.add_pos_right _ (hnat (k + 1))
  | float q =>
      have hslash : ("/" : String).utf8ByteSize = 1 := by decide
      show 0 < (toString q.num ++ "/" ++ toString q.den).utf8ByteSize
      rw [String.utf8ByteSize_append, String.utf8ByteSize_append, hslash]
      omega

theorem previewServer_renders : previewServer.RendersPreviews keepingRedactor :=
  ⟨rfl, fun _ => rfl, plainNumber_pos, rfl⟩

theorem previewServer_authorizes : previewServer.mecmcp.authorizeCall none
    "unifi_create_change_set" (some "main") = .ok () := rfl

/-- A draft whose preview without a change is below the bound is accepted. -/
theorem exists_gives_previewServer {description : String}
    (hnamed : namedBytes "main" description + emptyPreviewBytes < maxPreviewBytes) :
    ∃ v, (previewServer.unifiCreateChangeSet none ⟨"main", description⟩).Gives
      (createTrace previewServer none ⟨"main", description⟩ homeClient) (.ok v) := by
  obtain ⟨smallest, hsmallest, hsize⟩ :=
    exists_smallest previewServer_renders ⟨"main", description⟩
  have hbelow : smallest.utf8ByteSize < maxPreviewBytes := by
    rw [hsize]
    exact hnamed
  exact exists_gives_create previewServer_authorizes hsmallest hbelow homeClient

/-- A short description leaves room. -/
theorem draftHasRoom_iff_rename : previewServer.HasRoom "main" "rename a zone" := by
  have hnamed : namedBytes "main" "rename a zone" = 21 := by decide
  have hfits : LeavesRoom "main" "rename a zone" := by
    unfold LeavesRoom maxPreviewBytes emptyPreviewBytes leastChangeBytes
    omega
  have hbelow : namedBytes "main" "rename a zone" + emptyPreviewBytes < maxPreviewBytes := by
    unfold maxPreviewBytes emptyPreviewBytes
    omega
  obtain ⟨v, hgives⟩ := exists_gives_previewServer hbelow
  have hroom : ∀ t v, (previewServer.unifiCreateChangeSet none
      ⟨"main", "rename a zone"⟩).Gives t (.ok v) → previewServer.HasRoom "main" "rename a zone" :=
    (draftHasRoom_iff previewServer_renders previewServer_authorizes).2 hfits
  exact hroom _ v hgives

/-- A description of one letter, over and over, takes any number of bytes. -/
theorem exists_named (n : Nat) : ∃ description, namedBytes "main" description = n + 8 := by
  have hmain : (Json.quoted "main").utf8ByteSize = 6 := by decide
  have hletter : (Json.escapeChar 'a').utf8ByteSize = 1 := by decide
  have hletters : (Json.quoted (String.ofList (List.replicate n 'a'))).utf8ByteSize = n + 2 := by
    rw [Json.utf8ByteSize_quoted, String.toList_ofList, List.map_replicate, hletter]
    simp
  refine ⟨String.ofList (List.replicate n 'a'), ?_⟩
  unfold namedBytes
  omega

/-- **A description can be accepted and leave no room**: the preview of an empty plan is one byte
below the bound, and every change takes more. -/
theorem not_draftHasRoom_letters :
    ¬ ∀ (server : UnifiServer) (r : Redactor) (caller : Option CallerCtx)
      (args : CreateChangeSetArgs) (t : List (Event ServerSig)) (v : Json),
      server.RendersPreviews r →
      (server.unifiCreateChangeSet caller args).Gives t (.ok v) →
      server.HasRoom args.controller args.description := by
  intro h
  obtain ⟨description, hnamed⟩ := exists_named 261831
  have hbelow : namedBytes "main" description + emptyPreviewBytes < maxPreviewBytes := by
    rw [hnamed]
    unfold maxPreviewBytes emptyPreviewBytes
    omega
  obtain ⟨v, hgives⟩ := exists_gives_previewServer hbelow
  have hroom : previewServer.HasRoom "main" description :=
    h previewServer keepingRedactor none ⟨"main", description⟩ _ v previewServer_renders hgives
  rw [hasRoom_iff previewServer_renders, hnamed] at hroom
  unfold maxPreviewBytes emptyPreviewBytes leastChangeBytes at hroom
  omega

end UnifiMcp
