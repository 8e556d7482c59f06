import UnifiMcp.Changeset.Record
import UnifiMcp.Changeset.WritableFields
import UnifiMcp.Client.ControllerOps

/-!
# What a tool call asks of the server

A handler is a program over the server's surroundings: the change-set coordinator, the
drafts held in memory, the lock that keeps approvals and plans apart, the clock, the
evidence recorder and the controllers.  `ServerSig` is its questions.

`Mecmcp` collects the functions of the shared crates that the handlers call and that are
not part of this repository.
-/

namespace UnifiMcp

open Interaction Collections

/-! ## Callers -/

/-- A set of names a token is scoped to.  The type is the shared crate's; a scope is known here
by what it answers, and what that is documented to be are the two predicates below. -/
structure ScopeSet where
  /-- Whether the scope permits a name. -/
  allows : String → Bool

/-- A wildcard permits every name. -/
def ScopeSet.IsWildcard (scope : ScopeSet) : Prop := ∀ name, scope.allows name = true

/-- An allowlist permits only the names on it. -/
def ScopeSet.IsAllowlist (scope : ScopeSet) (names : List String) : Prop :=
  ∀ name, scope.allows name = true ↔ name ∈ names

/-- Per-token site write authority: the sites a token may write to. -/
structure UnifiGrant where
  sites : ScopeSet

/-- Whether the grant permits writing to a site. -/
def UnifiGrant.allowsSubject (grant : UnifiGrant) (subject : String) : Bool :=
  grant.sites.allows subject

/-- Who is behind a token. -/
inductive ActorType where
  | human
  | agent
  | unknown
  deriving DecidableEq, Repr

/-- An authenticated caller, with the scopes its token had when it called. -/
structure CallerCtx where
  tokenName : String
  actorType : ActorType
  /-- The tools its scope allows. -/
  allowsTool : String → Bool
  grant : Option UnifiGrant

/-! ## Change sets -/

/-- The state of a stored change set.  `other` stands for states no handler names. -/
inductive ChangeSetState where
  | planned
  | approved
  | applying
  | applied
  | failed
  | other (name : String)
  deriving DecidableEq, Repr

/-- The name of a state. -/
def ChangeSetState.asStr : ChangeSetState → String
  | .planned => "planned"
  | .approved => "approved"
  | .applying => "applying"
  | .applied => "applied"
  | .failed => "failed"
  | .other name => name

/-- A preview as it is stored. -/
structure PreviewRecord where
  digest : String
  artifact : String
  deriving DecidableEq, Repr

/-- A stored change set. -/
structure ChangeSetRecord where
  id : String
  owner : String
  /-- The controller it is for. -/
  device : String
  expectedCandidateFingerprint : String
  actions : List Json
  digest : String
  state : ChangeSetState
  approver : Option String
  /-- The kind of waiver that stands in for an approval, if one was recorded. -/
  approvalWaiver : Option String := none
  expiresAtUnix : Nat
  preview : Option PreviewRecord
  deriving DecidableEq, Repr

/-- A change set that exists but has nothing staged into it. -/
structure Draft where
  controller : String
  owner : String
  description : String
  createdAtUnix : Nat
  deriving DecidableEq, Repr

/-- How many unstaged change sets may be held at once. -/
def maxDrafts : Nat := 32

/-- Hold a draft: forget those that have lapsed, then refuse a second one of the same owner
on the same controller, and one too many. -/
def holdDraft (drafts : SortedMap String Draft) (id : String) (draft : Draft)
    (now deadline : Nat) : Except String Unit × SortedMap String Draft :=
  let kept := drafts.retain fun held => now - held.createdAtUnix < deadline
  match kept.entries.find? fun e =>
      e.2.owner = draft.owner ∧ e.2.controller = draft.controller with
  | some (existing, _) =>
      (.error (s!"change set {existing} on '{draft.controller}' has nothing staged yet; stage " ++
        "into it or let it lapse before creating another"), kept)
  | none =>
      if kept.entries.length ≥ maxDrafts then
        (.error (s!"{maxDrafts} change sets are open with nothing staged; stage into one or " ++
          "let them lapse"), kept)
      else (.ok (), kept.insert id draft)

/-! ## Questions -/

/-- Why the coordinator refuses. -/
structure CoordinatorError where
  field : String
  message : String
  deriving DecidableEq, Repr

/-- What an approval is answered with. -/
structure ApprovalOutcome where
  changeSetId : String
  state : ChangeSetState
  approver : Option String
  approvalWaiver : Json
  expiresAtUnix : Nat
  digest : String

/-- The calls of the change-set coordinator. -/
inductive CoordinatorOp where
  | changeSets
  | changeSet (id device : String)
  | changeSetStatus (id device : String)
  | insertChangeSet (record : ChangeSetRecord)
  | approveChangeSet (id device approver digest : String) (actorType : ActorType)
  | waiveApproval (id device approver digest : String)
  | claimChangeSetForApply (id device : String)
  | updateChangeSet (record : ChangeSetRecord)

/-- What each call is answered with. -/
abbrev CoordinatorOp.Answer : CoordinatorOp → Type
  | .changeSets => List ChangeSetRecord
  | .changeSet _ _ | .claimChangeSetForApply _ _ => Except CoordinatorError ChangeSetRecord
  | .changeSetStatus _ _ | .insertChangeSet _ | .updateChangeSet _ =>
      Except CoordinatorError Unit
  | .approveChangeSet _ _ _ _ _ | .waiveApproval _ _ _ _ =>
      Except CoordinatorError ApprovalOutcome

/-- What a handler asks of its surroundings. -/
inductive ServerOp where
  | coordinator (op : CoordinatorOp)
  | unixSecondsNow
  | newChangeSetId
  /-- Hold a draft, under the lock of the drafts. -/
  | holdDraft (id : String) (draft : Draft) (now deadline : Nat)
  /-- Look a draft up; none if the lock is poisoned. -/
  | readDraft (id : String)
  | releaseDraft (id : String)
  | lockPlan
  | unlockPlan
  | clientFor (controller : String)
  /-- All the clients, by the names of their controllers. -/
  | clients
  /-- The names in the inventory. -/
  | controllerNames
  /-- Look a controller up in the inventory. -/
  | controllerNamed (name : String)
  /-- A question of the client of one controller. -/
  | client (controller : String) (op : ClientOp)
  | proposal (id device owner digest : String)
  | applyIntent (id controller principal : String)
  | resultReceipt (id controller principal : String) (succeeded : Bool) (error : String)

/-- What each question is answered with. -/
abbrev ServerOp.Answer : ServerOp → Type
  | .coordinator op => op.Answer
  | .unixSecondsNow => Nat
  | .newChangeSetId => String
  | .holdDraft _ _ _ _ => Except PoisonError (Except String Unit)
  | .readDraft _ => Option Draft
  | .releaseDraft _ | .lockPlan | .unlockPlan | .proposal _ _ _ _ => Unit
  | .clientFor _ => Except PoisonError (Option UnifiClient)
  | .clients => Except PoisonError (SortedMap String UnifiClient)
  | .controllerNames => List String
  | .controllerNamed _ => Option Controller
  | .client _ op => op.Answer
  | .applyIntent _ _ _ | .resultReceipt _ _ _ _ _ => Except String Unit

/-! Every question can be answered. -/

instance (op : CoordinatorOp) : Nonempty op.Answer := by
  cases op with
  | changeSets => exact ⟨[]⟩
  | _ => exact ⟨.error ⟨"", ""⟩⟩

instance (op : ServerOp) : Nonempty op.Answer := by
  cases op with
  | coordinator op => exact inferInstanceAs (Nonempty op.Answer)
  | client controller op =>
      cases op with
      | send request => exact ⟨.error .invalidUrl⟩
      | _ => exact ⟨.error .poisoned⟩
  | clientFor _ | clients | holdDraft _ _ _ _ => exact ⟨.error .poisoned⟩
  | applyIntent _ _ _ | resultReceipt _ _ _ _ _ => exact ⟨.error ""⟩
  | unixSecondsNow => exact ⟨0⟩
  | newChangeSetId => exact ⟨""⟩
  | controllerNames => exact ⟨[]⟩
  | readDraft _ | controllerNamed _ => exact ⟨none⟩
  | releaseDraft _ | lockPlan | unlockPlan | proposal _ _ _ _ => exact ⟨()⟩

/-- The signature of the handlers. -/
abbrev ServerSig : Signature := ⟨ServerOp, ServerOp.Answer⟩

/-- A handler: it gives the value it renders, or the text of its refusal. -/
abbrev ServerM (α : Type) : Type := Fallible ServerSig String α

/-- Ask one question of the surroundings. -/
def ServerM.ask (op : ServerOp) : ServerM op.Answer :=
  Fallible.ask ServerSig op

/-- Call the coordinator. -/
def ServerM.coordinator (op : CoordinatorOp) : ServerM op.Answer :=
  ServerM.ask (.coordinator op)

/-- Put the questions of a client to one controller. -/
def onController {α : Type} (controller : String) (p : Program ClientSig α) :
    Program ServerSig α :=
  p.interpret fun op => Program.perform ServerSig (.client controller op)

/-! ## The server -/

/-- Functions of the shared crates. -/
structure Mecmcp where
  /-- `authorize_call`: whether the caller's scopes allow the tool on the controller. -/
  authorizeCall : Option CallerCtx → String → Option String → Except String Unit
  changeSetDigest : String → String → String → List Json → Except String String
  previewDigest : String → String
  /-- `digest_hex` of a text's bytes. -/
  digestHex : String → String
  validateChangeSetActions : List Json → Except CoordinatorError Unit
  /-- How `serde_json` writes a number. -/
  number : Number → String

/-- The UniFi MCP server. -/
structure UnifiServer where
  mecmcp : Mecmcp
  /-- `render_preview`: the text an approver signs off on, from the controller, the
  description, the mutations and the pre-image. -/
  renderPreview : String → String → List StagedMutation → Preimage → Except String String
  labMode : Bool
  /-- The approval window in seconds. -/
  approvalTtl : Nat
  /-- Whether evidence is recorded. -/
  evidence : Bool
  /-- `gate_direct_commit`: whether a caller may, with a tool, do an action to a target. -/
  directCommit : Option CallerCtx → String → String → String → Except String Unit

/-- The principal behind a call. -/
def principal (caller : Option CallerCtx) : String :=
  caller.elim "unknown" CallerCtx.tokenName

/-- The actor type an approval is recorded with; unknown without a caller. -/
def approverActorType (caller : Option CallerCtx) : ActorType :=
  caller.elim .unknown CallerCtx.actorType

/-- Whether a caller's tool scope would let it both stage and approve a change set. -/
def holdsCombinedTwoPersonControlScope (caller : Option CallerCtx) : Bool :=
  match caller with
  | none => false
  | some caller =>
      caller.allowsTool "unifi_stage_change" && caller.allowsTool "unifi_approve_change_set"

/-- The largest value of a 64-bit counter. -/
def maxU64 : Nat := 2 ^ 64 - 1

/-- Addition that stops at the largest 64-bit value. -/
def saturatingAdd (a b : Nat) : Nat := min (a + b) maxU64

/-- A number as JSON. -/
def Json.ofNat (n : Nat) : Json := .num (.posInt (UInt64.ofNat n))

end UnifiMcp
