import ConstructServer.Library.Serial
import ConstructServer.Queue.Envelope
import Mathlib.Data.List.Sort

/-!
# The directory of a group

The group service keeps for every group its epoch and ratchet tree, the devices that are members,
the devices with an admin role, the invites that wait and the commits of the last thirty days. The
calls of the service on one group, as programs over the statements of the database; transactions
that lock the row of the group are one statement each.
-/

namespace ConstructServer.Groups

open Calls Queue Option Function

/-! ### The rows -/

structure Member where
  deviceId : String
  leafIndex : Nat
deriving DecidableEq

inductive AdminRole
  | full
  | moderator
deriving DecidableEq

structure Admin where
  role : AdminRole
  isCreator : Bool
deriving DecidableEq

structure Invite where
  inviteId : String
  targetDeviceId : String
  epoch : Nat
  /-- In seconds. -/
  expiresAt : Nat

structure Commit where
  epochFrom : Nat
  epochTo : Nat
  mlsCommit : Bytes
  ratchetTree : Bytes
  expiresAt : Nat
deriving DecidableEq

structure Group where
  epoch : Nat
  ratchetTree : Bytes
  maxMembers : Nat
  retentionDays : Nat
  threadsEnabled : Bool
  createdAt : Nat
  dissolvedAt : Option Nat

structure Directory where
  /-- In seconds. -/
  now : Nat
  group : Option Group
  members : List Member
  admins : String → Option Admin
  invites : List Invite
  commits : List Commit

def Directory.IsMember (s : Directory) (deviceId : String) : Prop := ∃ m ∈ s.members, m.deviceId = deviceId

instance decidableIsMember (s : Directory) (deviceId : String) : Decidable (s.IsMember deviceId) :=
  inferInstanceAs (Decidable (∃ m ∈ s.members, m.deviceId = deviceId))

/-- The leaf after the last one that is taken; the `i32` of the source holds every leaf below `2 ^
31`. -/
def Directory.nextLeafIndex (s : Directory) : Nat :=
  match (s.members.map Member.leafIndex).max? with
  | none => 0
  | some leaf => leaf + 1

def Directory.invite? (s : Directory) (inviteId : String) : Option Invite :=
  s.invites.find? fun i => decide (i.inviteId = inviteId ∧ s.now < i.expiresAt)

/-! ### The statements -/

inductive GroupStatement
  | clock
  | rateLimit
  | deviceBelongsToUser (deviceId : String)
  | verifyAdminProof (deviceId : String)
  | getKeyPackageDeviceByRef (keyPackageRef : Bytes)
  | getGroupAdminAccess (deviceId : String)
  | isGroupMember (deviceId : String)
  | getGroupDissolvedAt
  | getGroupMemberCount
  | getGroupMaxMembers
  | getGroupEpoch
  | getActiveGroupState
  | getPendingCommitsSince (sinceEpoch : Nat)
  | hasPendingGroupInvite (deviceId : String)
  | getGroupInviteForAccept (inviteId : String)
  | getGroupInviteTargetDevice (inviteId : String)
  | getNextGroupLeafIndex
  | createGroupWithCreator (deviceId : String) (group : Group)
  | insertGroupInvite (invite : Invite)
  | deleteGroupInvite (inviteId : String)
  | insertGroupMember (deviceId : String) (leafIndex : Nat)
  | removeGroupMember (deviceId : String)
  | removeGroupAdminRole (deviceId : String)
  | upsertGroupAdminRole (deviceId : String) (role : AdminRole)
  | transferGroupOwnership (oldOwner newOwner : String)
  | advanceGroupEpoch (epoch : Nat) (mlsCommit ratchetTree : Bytes) (now : Nat)
  | setGroupDissolvedAt (now : Nat)

abbrev GroupStatement.Reply : GroupStatement → Type
  | .clock | .getGroupMemberCount | .getGroupMaxMembers | .getGroupEpoch | .getNextGroupLeafIndex => Nat
  | .rateLimit | .deviceBelongsToUser _ | .isGroupMember _ | .hasPendingGroupInvite _ => Bool
  | .verifyAdminProof _ => Option Status
  | .getKeyPackageDeviceByRef _ | .getGroupInviteTargetDevice _ => Option String
  | .getGroupAdminAccess _ => Option Admin
  | .getGroupDissolvedAt => Option Nat
  | .getActiveGroupState => Option Group
  | .getPendingCommitsSince _ => List Commit
  | .getGroupInviteForAccept _ => Option Invite
  | .transferGroupOwnership _ _ | .advanceGroupEpoch .. => Bool
  | _ => Unit

/-- What other tables and the signatures say. -/
structure Answer where
  allowed : Bool
  refusal : Option Status
  deviceId : Option String

def commitTtl : Nat := 30 * 24 * 3600

def Commit.at (epoch : Nat) (mlsCommit ratchetTree : Bytes) (now : Nat) : Commit :=
  ⟨epoch, epoch + 1, mlsCommit, ratchetTree, now + commitTtl⟩

def TransferEligible (s : Directory) (oldOwner newOwner : String) : Prop :=
  oldOwner ≠ newOwner ∧ (∃ a ∈ s.admins oldOwner, a.isCreator = true) ∧
    ∃ a ∈ s.admins newOwner, a.role = .full

instance decidableTransferEligible (s : Directory) (oldOwner newOwner : String) :
    Decidable (TransferEligible s oldOwner newOwner) := by
  dsimp only [TransferEligible]
  infer_instance

def transferred (admins : String → Option Admin) (oldOwner newOwner : String) : String → Option Admin :=
  update (update admins oldOwner ((admins oldOwner).map fun a => { a with isCreator := false }))
    newOwner (some ⟨.full, true⟩)

/-- What a statement does when it succeeds; a duplicate key and a missing group are failures. -/
def GroupStatement.effect (q : GroupStatement) (answer : Answer) (s : Directory) :
    Option (q.Reply × Directory) :=
  match q with
  | .clock => some (s.now, s)
  | .rateLimit => some (answer.allowed, s)
  | .deviceBelongsToUser _ => some (answer.allowed, s)
  | .verifyAdminProof _ => some (answer.refusal, s)
  | .getKeyPackageDeviceByRef _ => some (answer.deviceId, s)
  | .getGroupAdminAccess d => some (s.admins d, s)
  | .isGroupMember d => some (decide (s.IsMember d), s)
  | .getGroupDissolvedAt => some (s.group.bind Group.dissolvedAt, s)
  | .getGroupMemberCount => some (s.members.length, s)
  | .getGroupMaxMembers => s.group.map fun g => (g.maxMembers, s)
  | .getGroupEpoch => s.group.map fun g => (g.epoch, s)
  | .getActiveGroupState => some (s.group.filter fun g => g.dissolvedAt.isNone, s)
  | .getPendingCommitsSince e =>
    some ((s.commits.filter fun c => decide (e ≤ c.epochFrom ∧ s.now < c.expiresAt)).insertionSort
      fun c c' => c.epochFrom ≤ c'.epochFrom, s)
  | .hasPendingGroupInvite d =>
    some (s.invites.any fun i => decide (i.targetDeviceId = d ∧ s.now < i.expiresAt), s)
  | .getGroupInviteForAccept i => some (s.invite? i, s)
  | .getGroupInviteTargetDevice i =>
    some ((s.invites.find? fun invite => decide (invite.inviteId = i)).map Invite.targetDeviceId, s)
  | .getNextGroupLeafIndex => some (s.nextLeafIndex, s)
  | .createGroupWithCreator d g =>
    if s.group = none then
      some ((), { s with
        group := some g
        members := [⟨d, 0⟩]
        admins := update (fun _ => none) d (some ⟨.full, true⟩) })
    else none
  | .insertGroupInvite i =>
    if s.group.isSome ∧ ∀ i' ∈ s.invites, i'.inviteId ≠ i.inviteId ∧ i'.targetDeviceId ≠ i.targetDeviceId then
      some ((), { s with invites := s.invites ++ [i] })
    else none
  | .deleteGroupInvite i => some ((), { s with invites := s.invites.filter fun i' => decide (i'.inviteId ≠ i) })
  | .insertGroupMember d leaf =>
    if s.group.isSome ∧ ¬ s.IsMember d then
      some ((), { s with members := s.members ++ [⟨d, leaf⟩] })
    else none
  | .removeGroupMember d => some ((), { s with members := s.members.filter fun m => decide (m.deviceId ≠ d) })
  | .removeGroupAdminRole d => some ((), { s with admins := update s.admins d none })
  | .upsertGroupAdminRole d role =>
    if s.group.isSome then
      some ((), { s with admins := update s.admins d (some
        { (s.admins d).getD ⟨role, false⟩ with role }) })
    else none
  | .transferGroupOwnership o d =>
    s.group.map fun _ =>
      if TransferEligible s o d then (true, { s with admins := transferred s.admins o d }) else (false, s)
  | .advanceGroupEpoch e commit tree now =>
    s.group.map fun g =>
      if g.epoch = e then
        (true, { s with
          group := some { g with epoch := e + 1, ratchetTree := tree }
          commits := s.commits ++ [Commit.at e commit tree now] })
      else (false, s)
  | .setGroupDissolvedAt now =>
    some ((), { s with group := s.group.map fun g => { g with dissolvedAt := some now } })

def GroupStatement.input (q : GroupStatement) (input : Input Answer) : Input Answer :=
  match q with
  | .clock => { input with outcome := .ok }
  | _ => input

def Directory.exec (s : Directory) (q : GroupStatement) (input : Input Answer) :
    Option (Option q.Reply × Directory) :=
  fallible GroupStatement.effect q (q.input input) s

/-! ### The calls -/

abbrev GroupCall (α : Type) : Type := Fallible GroupStatement GroupStatement.Reply Status α

/-- `map_db_error`. -/
def db (q : GroupStatement) : GroupCall q.Reply := demand q ⟨.internal, "DB error"⟩

def internal (q : GroupStatement) (message : String) : GroupCall q.Reply := demand q ⟨.internal, message⟩

def checkGroupAdmin (deviceId : String) : GroupCall (Bool × Bool) := do
  let admin ← db (.getGroupAdminAccess deviceId)
  match admin with
  | some a => pure (a.isCreator, decide (a.role = .full))
  | none => pure (false, false)

def ensureAdmin (deviceId : String) : GroupCall Unit := do
  let access ← checkGroupAdmin deviceId
  ensure (access.1 || access.2) ⟨.permissionDenied, "NOT_ADMIN"⟩

def ensureNotCreator (deviceId : String) (refusal : Status) : GroupCall Unit := do
  let access ← checkGroupAdmin deviceId
  ensure (access.1 = false) refusal

def ensureMember (deviceId : String) (refusal : Status) : GroupCall Unit := do
  let isMember ← db (.isGroupMember deviceId)
  ensure (isMember = true) refusal

def ensureNotMember (deviceId : String) (refusal : Status) : GroupCall Unit := do
  let isMember ← db (.isGroupMember deviceId)
  ensure (isMember = false) refusal

def ensureNotDissolved (message : String) : GroupCall Unit := do
  let dissolvedAt ← db .getGroupDissolvedAt
  ensure (dissolvedAt = none) ⟨.notFound, message⟩

def verifyAdminProof (deviceId : String) : GroupCall Unit := do
  let refusal ← db (.verifyAdminProof deviceId)
  match refusal with
  | some status => throw status
  | none => pure ()

def ensureOwnDevice (deviceId : String) : GroupCall Unit := do
  let own ← db (.deviceBelongsToUser deviceId)
  ensure (own = true) ⟨.permissionDenied, "Device does not belong to authenticated user"⟩

def ensureAllowed (message : String) : GroupCall Unit := do
  let allowed ← internal .rateLimit "Rate limit error"
  ensure (allowed = true) ⟨.resourceExhausted, message⟩

def required (field : Bytes) (message : String) : GroupCall Unit :=
  ensure (field ≠ []) ⟨.invalidArgument, message⟩

structure GroupStateAnswer where
  epoch : Nat
  ratchetTree : Option Bytes
  pendingCommits : List Commit
  maxMembers : Nat
  memberCount : Nat
  retentionDays : Nat
  threadsEnabled : Bool
  createdAt : Nat

inductive GroupReply
  | created (createdAt : Nat)
  | invited (inviteId : String) (expiresAt : Nat)
  | accepted (newEpoch joinedAt : Nat)
  | declined
  | left (leftAt : Nat)
  | removed (newEpoch removedAt : Nat)
  | delegated (delegatedAt : Nat)
  | transferred (transferredAt : Nat)
  | dissolved (memberCount : Nat)
  | committed (newEpoch committedAt : Nat)
  | groupState (state : GroupStateAnswer)

def retentionDays (requested : Nat) : Except Status Nat :=
  if requested = 0 then .ok 30
  else if requested > 90 then .error ⟨.invalidArgument, "message_retention_days cannot exceed 90"⟩
  else .ok requested

structure CreateGroupRequest where
  initialRatchetTree : Bytes
  maxMembers : Nat
  retentionDays : Nat
  threadsEnabled : Bool

def createGroup (deviceId : String) (req : CreateGroupRequest) : GroupCall GroupReply := do
  ensureAllowed "Rate limit exceeded: maximum 10 groups per day"
  required req.initialRatchetTree "initial_ratchet_tree is required"
  ensure (req.maxMembers ≤ 2048) ⟨.invalidArgument, "max_members cannot exceed 2048"⟩
  ensure (req.maxMembers ≠ 0) ⟨.invalidArgument, "max_members must be at least 1"⟩
  let days ← check (Groups.retentionDays req.retentionDays)
  ensureOwnDevice deviceId
  let now ← db .clock
  let _ ← internal (.createGroupWithCreator deviceId
    ⟨0, req.initialRatchetTree, req.maxMembers, days, req.threadsEnabled, now, none⟩) "Failed to create group"
  pure (.created now)

def inviteTtl : Nat := 604800

def inviteLifetime (requested : Nat) : Except Status Nat :=
  if requested = 0 then .ok inviteTtl
  else if requested > inviteTtl then
    .error ⟨.invalidArgument, "expires_in_seconds cannot exceed 604800 (7 days)"⟩
  else .ok requested

structure InviteRequest where
  inviteId : String
  mlsWelcome : Bytes
  keyPackageRef : Bytes
  expiresInSeconds : Nat
  epoch : Nat

def keyPackageDevice (keyPackageRef : Bytes) : GroupCall String := do
  let device ← internal (.getKeyPackageDeviceByRef keyPackageRef) "Failed to resolve key package"
  match device with
  | some d => pure d
  | none =>
    throw ⟨.notFound, "KeyPackage not found or expired; target must publish a KeyPackage first"⟩

def ensureRoom : GroupCall Unit := do
  let memberCount ← db .getGroupMemberCount
  let maxMembers ← db .getGroupMaxMembers
  ensure (memberCount < maxMembers) ⟨.resourceExhausted, "GROUP_FULL: max_members reached"⟩

def ensureNotInvited (deviceId : String) : GroupCall Unit := do
  let pending ← internal (.hasPendingGroupInvite deviceId) "Failed to check pending invite"
  ensure (pending = false) ⟨.alreadyExists, "Device already has a pending invite for this group"⟩

def inviteToGroup (deviceId : String) (req : InviteRequest) : GroupCall GroupReply := do
  ensureAdmin deviceId
  ensureAllowed "RATE_LIMIT: max 100 invites per hour"
  ensureNotDissolved "Group dissolved"
  required req.mlsWelcome "mls_welcome is required"
  required req.keyPackageRef "key_package_ref is required"
  let lifetime ← check (inviteLifetime req.expiresInSeconds)
  let target ← keyPackageDevice req.keyPackageRef
  ensureNotMember target ⟨.alreadyExists, "Device is already a member of this group"⟩
  ensureRoom
  ensureNotInvited target
  let now ← db .clock
  let _ ← internal (.insertGroupInvite ⟨req.inviteId, target, req.epoch, now + lifetime⟩) "Failed to create invite"
  pure (.invited req.inviteId (now + lifetime))

structure AcceptRequest where
  inviteId : String
  mlsCommit : Bytes
  newRatchetTree : Bytes

def staleInvite : Status := ⟨.failedPrecondition, "EPOCH_MISMATCH: invite epoch is stale; group has advanced"⟩

def loadInvite (deviceId inviteId : String) : GroupCall Invite := do
  let found ← internal (.getGroupInviteForAccept inviteId) "Failed to load invite"
  match found with
  | none => throw ⟨.notFound, "Invite not found or expired"⟩
  | some invite => do
    ensure (invite.targetDeviceId = deviceId) ⟨.permissionDenied, "Invite belongs to a different device"⟩
    pure invite

def checkAcceptance (deviceId : String) (req : AcceptRequest) : GroupCall Invite := do
  let invite ← loadInvite deviceId req.inviteId
  let epoch ← db .getGroupEpoch
  ensure (invite.epoch = epoch) staleInvite
  required req.mlsCommit "mls_commit is required"
  required req.newRatchetTree "new_ratchet_tree is required"
  verifyAdminProof deviceId
  ensureOwnDevice deviceId
  ensureNotMember deviceId ⟨.alreadyExists, "Already a member of this group"⟩
  pure invite

def join (deviceId : String) (req : AcceptRequest) (epoch : Nat) : GroupCall GroupReply := do
  let leaf ← internal .getNextGroupLeafIndex "Failed to get next leaf index"
  let now ← db .clock
  let _ ← internal (.insertGroupMember deviceId leaf) "Failed to add member"
  let advanced ← internal (.advanceGroupEpoch epoch req.mlsCommit req.newRatchetTree now) "Failed to commit transaction"
  ensure (advanced = true) staleInvite
  let _ ← internal (.deleteGroupInvite req.inviteId) "Failed to delete invite"
  let _ ← db .getGroupMemberCount
  pure (.accepted (epoch + 1) now)

def acceptGroupInvite (deviceId : String) (req : AcceptRequest) : GroupCall GroupReply := do
  let invite ← checkAcceptance deviceId req
  join deviceId req invite.epoch

def declineGroupInvite (deviceId inviteId : String) : GroupCall GroupReply := do
  let target ← internal (.getGroupInviteTargetDevice inviteId) "Failed to load invite target"
  match target with
  | none => throw ⟨.notFound, "Invite not found"⟩
  | some d => do
    ensure (d = deviceId) ⟨.permissionDenied, "Invite belongs to a different device"⟩
    let _ ← internal (.deleteGroupInvite inviteId) "Failed to delete invite"
    pure .declined

def removeDevice (deviceId : String) : GroupCall Unit := do
  let _ ← internal (.removeGroupMember deviceId) "Failed to remove member"
  let _ ← internal (.removeGroupAdminRole deviceId) "Failed to remove admin role"

def leaveGroup (deviceId : String) (mlsRemoveProposal : Bytes) : GroupCall GroupReply := do
  ensureNotDissolved "Group dissolved"
  ensureMember deviceId ⟨.permissionDenied, "NOT_MEMBER"⟩
  ensureNotCreator deviceId ⟨.failedPrecondition, "Creator cannot leave group; use DissolveGroup instead"⟩
  required mlsRemoveProposal "mls_remove_proposal is required; clients must submit a signed Remove Proposal"
  let now ← db .clock
  removeDevice deviceId
  let _ ← db .getGroupMemberCount
  pure (.left now)

def removeMember (deviceId target : String) (mlsRemoveProposal : Bytes) : GroupCall GroupReply := do
  ensureAdmin deviceId
  verifyAdminProof deviceId
  ensureNotDissolved "Group dissolved"
  ensureMember target ⟨.notFound, "Target is not a member of this group"⟩
  ensureNotCreator target ⟨.failedPrecondition, "Cannot remove group creator"⟩
  required mlsRemoveProposal "mls_remove_proposal is required; admin must supply a signed Remove Proposal"
  let now ← db .clock
  removeDevice target
  let epoch ← db .getGroupEpoch
  let _ ← db .getGroupMemberCount
  pure (.removed epoch now)

def delegatedRole (role : Option AdminRole) : Except Status AdminRole :=
  match role with
  | some role => .ok role
  | none => .error ⟨.invalidArgument, "Invalid admin role"⟩

def delegateAdmin (deviceId target : String) (role : Option AdminRole) : GroupCall GroupReply := do
  ensureAdmin deviceId
  verifyAdminProof deviceId
  ensureNotDissolved "Group dissolved"
  ensureMember target ⟨.notFound, "Target is not a member of this group"⟩
  let role ← check (delegatedRole role)
  ensureNotCreator target ⟨.failedPrecondition, "Cannot change creator's role"⟩
  let now ← db .clock
  let _ ← internal (.upsertGroupAdminRole target role) "Failed to delegate admin"
  pure (.delegated now)

def ensureCreator (deviceId : String) : GroupCall Unit := do
  let access ← checkGroupAdmin deviceId
  ensure (access.1 = true) ⟨.permissionDenied, "Only creator can transfer ownership"⟩

def ensureHeir (deviceId : String) : GroupCall Unit := do
  let access ← checkGroupAdmin deviceId
  ensure (access.1 = false) ⟨.invalidArgument, "Target is already creator"⟩
  ensure (access.2 = true) ⟨.permissionDenied, "Target must be FULL admin to receive ownership"⟩

def transferOwnership (deviceId newOwner : String) : GroupCall GroupReply := do
  ensureCreator deviceId
  ensureHeir newOwner
  verifyAdminProof deviceId
  verifyAdminProof newOwner
  let now ← db .clock
  let moved ← internal (.transferGroupOwnership deviceId newOwner) "Failed to transfer ownership"
  ensure (moved = true) ⟨.permissionDenied, "Ownership or target admin role changed"⟩
  pure (.transferred now)

def dissolveGroup (deviceId : String) : GroupCall GroupReply := do
  ensureAdmin deviceId
  verifyAdminProof deviceId
  ensureNotDissolved "Group already dissolved"
  let now ← db .clock
  let _ ← internal (.setGroupDissolvedAt now) "Failed to dissolve group"
  let memberCount ← db .getGroupMemberCount
  pure (.dissolved memberCount)

structure CommitRequest where
  epoch : Nat
  mlsCommit : Bytes
  newRatchetTree : Bytes

def submitCommit (deviceId : String) (req : CommitRequest) : GroupCall GroupReply := do
  ensureMember deviceId ⟨.permissionDenied, "NOT_MEMBER"⟩
  required req.mlsCommit "mls_commit is required"
  required req.newRatchetTree "new_ratchet_tree is required"
  ensureNotDissolved "Group dissolved"
  let now ← db .clock
  let advanced ← internal (.advanceGroupEpoch req.epoch req.mlsCommit req.newRatchetTree now) "Failed to commit"
  ensure (advanced = true) ⟨.aborted, "EPOCH_MISMATCH"⟩
  pure (.committed (req.epoch + 1) now)

def catchUp (knownEpoch : Option Nat) (g : Group) : GroupCall (Option Bytes × List Commit) :=
  match knownEpoch with
  | none => pure (some g.ratchetTree, [])
  | some known =>
    if known < g.epoch then do
      let commits ← internal (.getPendingCommitsSince known) "Failed to fetch pending commits"
      pure (none, commits)
    else pure (none, [])

def activeGroup : GroupCall Group := do
  let found ← internal .getActiveGroupState "Failed to fetch group state"
  match found with
  | none => throw ⟨.notFound, "Group not found or dissolved"⟩
  | some g => pure g

def getGroupState (deviceId : String) (knownEpoch : Option Nat) : GroupCall GroupReply := do
  ensureMember deviceId ⟨.permissionDenied, "NOT_MEMBER"⟩
  let g ← activeGroup
  let memberCount ← db .getGroupMemberCount
  let maxMembers ← db .getGroupMaxMembers
  let news ← catchUp knownEpoch g
  pure (.groupState
    ⟨g.epoch, news.1, news.2, maxMembers, memberCount, g.retentionDays, g.threadsEnabled, g.createdAt⟩)

/-- The calls of the service that name the group. -/
inductive GroupOp
  | createGroup (deviceId : String) (req : CreateGroupRequest)
  | inviteToGroup (deviceId : String) (req : InviteRequest)
  | acceptGroupInvite (deviceId : String) (req : AcceptRequest)
  | declineGroupInvite (deviceId inviteId : String)
  | leaveGroup (deviceId : String) (mlsRemoveProposal : Bytes)
  | removeMember (deviceId target : String) (mlsRemoveProposal : Bytes)
  | delegateAdmin (deviceId target : String) (role : Option AdminRole)
  | transferOwnership (deviceId newOwner : String)
  | dissolveGroup (deviceId : String)
  | submitCommit (deviceId : String) (req : CommitRequest)
  | getGroupState (deviceId : String) (knownEpoch : Option Nat)

def GroupOp.call : GroupOp → GroupCall GroupReply
  | .createGroup d req => Groups.createGroup d req
  | .inviteToGroup d req => Groups.inviteToGroup d req
  | .acceptGroupInvite d req => Groups.acceptGroupInvite d req
  | .declineGroupInvite d i => Groups.declineGroupInvite d i
  | .leaveGroup d p => Groups.leaveGroup d p
  | .removeMember d t p => Groups.removeMember d t p
  | .delegateAdmin d t role => Groups.delegateAdmin d t role
  | .transferOwnership d o => Groups.transferOwnership d o
  | .dissolveGroup d => Groups.dissolveGroup d
  | .submitCommit d req => Groups.submitCommit d req
  | .getGroupState d known => Groups.getGroupState d known

def GroupOp.body (c : GroupOp) (_ : Directory) : Program GroupStatement (fun q => Option q.Reply) (Except Status GroupReply) :=
  c.call.run

def GroupOp.IsAccept : GroupOp → Prop
  | .acceptGroupInvite .. => True
  | _ => False

def GroupOp.Advances : GroupOp → Prop
  | .acceptGroupInvite .. | .submitCommit .. => True
  | _ => False

instance decidableIsAccept : (c : GroupOp) → Decidable c.IsAccept := fun c => by
  cases c <;> dsimp only [GroupOp.IsAccept] <;> infer_instance

instance decidableAdvances : (c : GroupOp) → Decidable c.Advances := fun c => by
  cases c <;> dsimp only [GroupOp.Advances] <;> infer_instance

inductive GroupEvent
  | tick (seconds : Nat)
  | sweep

abbrev GroupAction : Type := Action (Input Answer) GroupOp GroupEvent

def GroupEvent.happen (e : GroupEvent) (s : Directory) : Directory :=
  match e with
  | .tick seconds => { s with now := s.now + seconds }
  | .sweep => { s with
      invites := s.invites.filter fun i => decide (s.now ≤ i.expiresAt)
      commits := s.commits.filter fun c => decide (s.now ≤ c.expiresAt) }

abbrev DirectoryPool : Type :=
  Pool GroupStatement (fun q => Option q.Reply) (Except Status GroupReply) GroupOp Directory

def directoryExec (_ : Nat) (q : GroupStatement) (input : Input Answer) (s : Directory) :
    Option (Option q.Reply × Directory) :=
  s.exec q input

def directoryStep (pool : DirectoryPool) (a : GroupAction) : Option DirectoryPool :=
  pool.step directoryExec GroupOp.body (fun _ _ _ s => s) GroupEvent.happen a

/-! ### What a call may ask for -/

def GroupStatement.Reads : GroupStatement → Prop
  | .createGroupWithCreator .. | .insertGroupInvite _ | .deleteGroupInvite _ | .insertGroupMember ..
  | .removeGroupMember _ | .removeGroupAdminRole _ | .upsertGroupAdminRole .. | .transferGroupOwnership ..
  | .advanceGroupEpoch .. | .setGroupDissolvedAt _ => False
  | _ => True

def GroupOp.Writes : GroupOp → GroupStatement → Prop
  | .createGroup d req, .createGroupWithCreator d' g =>
    d' = d ∧ g.epoch = 0 ∧ g.maxMembers = req.maxMembers ∧ 0 < g.maxMembers
  | .inviteToGroup .., .insertGroupInvite _ => True
  | .acceptGroupInvite d _, .insertGroupMember d' _ => d' = d
  | .acceptGroupInvite _ _, .advanceGroupEpoch .. => True
  | .acceptGroupInvite _ req, .deleteGroupInvite i => i = req.inviteId
  | .declineGroupInvite _ i, .deleteGroupInvite i' => i' = i
  | .leaveGroup d _, .removeGroupMember d' | .leaveGroup d _, .removeGroupAdminRole d' => d' = d
  | .removeMember _ d _, .removeGroupMember d' | .removeMember _ d _, .removeGroupAdminRole d' => d' = d
  | .delegateAdmin _ d _, .upsertGroupAdminRole d' _ => d' = d
  | .transferOwnership o d, .transferGroupOwnership o' d' => o' = o ∧ d' = d
  | .dissolveGroup _, .setGroupDissolvedAt _ => True
  | .submitCommit .., .advanceGroupEpoch .. => True
  | _, _ => False

def GroupOp.MayAsk (c : GroupOp) (q : GroupStatement) : Prop := q.Reads ∨ c.Writes q

variable {q : GroupStatement} {s s' : Directory} {answer : Answer}

theorem eq_of_reads {x : q.Reply} (hq : q.Reads) (h : q.effect answer s = some (x, s')) : s' = s := by
  cases q with
  | getGroupMaxMembers | getGroupEpoch =>
    obtain ⟨g, -, heq⟩ := map_eq_some_iff.mp h
    cases heq
    rfl
  | clock | rateLimit | deviceBelongsToUser _ | verifyAdminProof _ | getKeyPackageDeviceByRef _
  | getGroupAdminAccess _ | isGroupMember _ | getGroupDissolvedAt | getGroupMemberCount | getActiveGroupState
  | getPendingCommitsSince _ | hasPendingGroupInvite _ | getGroupInviteForAccept _
  | getGroupInviteTargetDevice _ | getNextGroupLeafIndex =>
    cases h
    rfl
  | _ => exact hq.elim

theorem quiet_of_reads {input : Input Answer} {r : Option q.Reply}
    (hq : q.Reads) (h : s.exec q input = some (r, s')) : s' = s := by
  rcases failed_or_effect h with ⟨rfl, -⟩ | ⟨x, he, -⟩
  · rfl
  · exact eq_of_reads hq he

inductive Field
  | group
  | members
  | admins
  | invites
  | commits

def GroupStatement.touches : GroupStatement → Field → Bool
  | .createGroupWithCreator .., .group | .createGroupWithCreator .., .members
  | .createGroupWithCreator .., .admins => true
  | .insertGroupInvite _, .invites | .deleteGroupInvite _, .invites => true
  | .insertGroupMember .., .members | .removeGroupMember _, .members => true
  | .removeGroupAdminRole _, .admins | .upsertGroupAdminRole .., .admins
  | .transferGroupOwnership .., .admins => true
  | .advanceGroupEpoch .., .group | .advanceGroupEpoch .., .commits | .setGroupDissolvedAt _, .group => true
  | _, _ => false

structure Frame (q : GroupStatement) (s s' : Directory) : Prop where
  now : s'.now = s.now
  group : q.touches .group = false → s'.group = s.group
  members : q.touches .members = false → s'.members = s.members
  admins : q.touches .admins = false → s'.admins = s.admins
  invites : q.touches .invites = false → s'.invites = s.invites
  commits : q.touches .commits = false → s'.commits = s.commits

theorem Frame.refl {s : Directory} : Frame q s s :=
  ⟨rfl, fun _ => rfl, fun _ => rfl, fun _ => rfl, fun _ => rfl, fun _ => rfl⟩

theorem frame_of_effect {x : q.Reply} (h : q.effect answer s = some (x, s')) : Frame q s s' := by
  cases q with
  | createGroupWithCreator | insertGroupInvite | insertGroupMember | upsertGroupAdminRole =>
    simp only [GroupStatement.effect] at h
    split at h
    · cases h
      constructor <;> first | rfl | exact fun _ => rfl | nofun
    · cases h
  | transferGroupOwnership | advanceGroupEpoch =>
    obtain ⟨g, -, heq⟩ := map_eq_some_iff.mp h
    split at heq
    · cases heq
      constructor <;> first | rfl | exact fun _ => rfl | nofun
    · cases heq
      exact .refl
  | getGroupMaxMembers | getGroupEpoch =>
    obtain ⟨g, -, heq⟩ := map_eq_some_iff.mp h
    cases heq
    exact .refl
  | _ =>
    cases h
    constructor <;> first | rfl | exact fun _ => rfl | nofun

theorem maxMembers_of_effect {x : q.Reply} (h : q.effect answer s = some (x, s'))
    (hq : ∀ d g, q ≠ .createGroupWithCreator d g) : s'.group.map Group.maxMembers = s.group.map Group.maxMembers := by
  by_cases hto : q.touches .group = false
  · rw [(frame_of_effect h).group hto]
  · cases q with
    | createGroupWithCreator d g => exact absurd rfl (hq d g)
    | setGroupDissolvedAt now =>
      cases h
      show (s.group.map _).map _ = _
      rw [map_map]
      rfl
    | advanceGroupEpoch e commit tree now =>
      obtain ⟨g, hg, heq⟩ := map_eq_some_iff.mp h
      split at heq
      · cases heq
        rw [hg]
        rfl
      · cases heq
        rfl
    | _ => exact absurd rfl hto

def SameEpoch (s s' : Directory) : Prop :=
  ∀ g, s.group = some g → ∃ g', s'.group = some g' ∧ g'.epoch = g.epoch

theorem SameEpoch.refl {s : Directory} : SameEpoch s s := fun g hg => ⟨g, hg, rfl⟩

theorem SameEpoch.trans {s t u : Directory} (h : SameEpoch s t) (h' : SameEpoch t u) : SameEpoch s u := by
  intro g hg
  obtain ⟨g₁, hg₁, he₁⟩ := h g hg
  obtain ⟨g₂, hg₂, he₂⟩ := h' g₁ hg₁
  exact ⟨g₂, hg₂, he₂.trans he₁⟩

theorem sameEpoch_happen {e : GroupEvent} {s : Directory} : SameEpoch s (e.happen s) := by
  cases e with
  | tick | sweep => exact .refl

theorem sameEpoch_of_effect {x : q.Reply}
    (h : q.effect answer s = some (x, s'))
    (hq : ∀ e commit tree now, q ≠ .advanceGroupEpoch e commit tree now) : SameEpoch s s' := by
  intro g hg
  by_cases hto : q.touches .group = false
  · exact ⟨g, ((frame_of_effect h).group hto).trans hg, rfl⟩
  · cases q with
    | createGroupWithCreator d g₀ => simp only [GroupStatement.effect, hg, reduceCtorEq, if_false] at h
    | setGroupDissolvedAt now =>
      cases h
      refine ⟨{ g with dissolvedAt := some now }, ?_, rfl⟩
      show s.group.map _ = _
      rw [hg]
      rfl
    | advanceGroupEpoch e commit tree now => exact absurd rfl (hq e commit tree now)
    | _ => exact absurd rfl hto

section

variable {P : GroupStatement → Prop} {d : String} {refusal : Status} {message : String}
  (hP : ∀ q, q.Reads → P q)
include hP

theorem asks_checkGroupAdmin : (checkGroupAdmin d).run.Asks P := by
  refine asks_next (hP _ trivial) fun admin => ?_
  cases admin <;> trivial

theorem asks_ensureAdmin : (ensureAdmin d).run.Asks P :=
  asks_then (asks_checkGroupAdmin hP) fun _ => asks_ensure

theorem asks_ensureNotCreator : (ensureNotCreator d refusal).run.Asks P :=
  asks_then (asks_checkGroupAdmin hP) fun _ => asks_ensure

theorem asks_ensureMember : (ensureMember d refusal).run.Asks P :=
  asks_next (hP _ trivial) fun _ => asks_ensure

theorem asks_ensureNotMember : (ensureNotMember d refusal).run.Asks P :=
  asks_next (hP _ trivial) fun _ => asks_ensure

theorem asks_ensureNotDissolved : (ensureNotDissolved message).run.Asks P :=
  asks_next (hP _ trivial) fun _ => asks_ensure

theorem asks_verifyAdminProof : (verifyAdminProof d).run.Asks P := by
  refine asks_next (hP _ trivial) fun refusal => ?_
  cases refusal <;> trivial

theorem asks_ensureOwnDevice : (ensureOwnDevice d).run.Asks P :=
  asks_next (hP _ trivial) fun _ => asks_ensure

theorem asks_ensureAllowed : (ensureAllowed message).run.Asks P :=
  asks_next (hP _ trivial) fun _ => asks_ensure

theorem asks_keyPackageDevice {ref : Bytes} : (keyPackageDevice ref).run.Asks P := by
  refine asks_next (hP _ trivial) fun device => ?_
  cases device <;> trivial

theorem asks_ensureRoom : ensureRoom.run.Asks P :=
  asks_next (hP _ trivial) fun _ => asks_next (hP _ trivial) fun _ => asks_ensure

theorem asks_ensureNotInvited : (ensureNotInvited d).run.Asks P :=
  asks_next (hP _ trivial) fun _ => asks_ensure

theorem asks_loadInvite {i : String} : (loadInvite d i).run.Asks P := by
  refine asks_next (hP _ trivial) fun found => ?_
  cases found with
  | none => trivial
  | some invite => exact asks_guard fun _ => trivial

theorem asks_activeGroup : activeGroup.run.Asks P := by
  refine asks_next (hP _ trivial) fun found => ?_
  cases found <;> trivial

theorem asks_createGroup {req : CreateGroupRequest}
    (hcr : ∀ g : Group, g.epoch = 0 → g.maxMembers = req.maxMembers → 0 < g.maxMembers →
      P (.createGroupWithCreator d g)) : (createGroup d req).run.Asks P := by
  refine asks_then (asks_ensureAllowed hP) fun _ => asks_guard fun _ =>
    asks_guard fun _ => ?_
  by_cases hma : req.maxMembers = 0
  · unfold ensure
    rw [if_neg (not_not.mpr hma)]
    trivial
  · refine asks_guard fun _ => asks_then asks_check fun days => asks_then (asks_ensureOwnDevice hP)
      fun _ => asks_next (hP _ trivial) fun now => ?_
    exact asks_next (hcr _ rfl rfl (Nat.pos_of_ne_zero hma)) fun _ => trivial

theorem asks_inviteToGroup {req : InviteRequest}
    (hin : ∀ i, P (.insertGroupInvite i)) : (inviteToGroup d req).run.Asks P := by
  refine asks_then (asks_ensureAdmin hP) fun _ => asks_then (asks_ensureAllowed hP) fun _ =>
    asks_then (asks_ensureNotDissolved hP) fun _ => asks_guard fun _ => asks_guard fun _ =>
    asks_then asks_check fun lifetime => asks_then (asks_keyPackageDevice hP) fun target =>
    asks_then (asks_ensureNotMember hP) fun _ => asks_then (asks_ensureRoom hP) fun _ =>
    asks_then (asks_ensureNotInvited hP) fun _ => asks_next (hP _ trivial) fun now => ?_
  exact asks_next (hin _) fun _ => trivial

theorem asks_checkAcceptance {req : AcceptRequest} : (checkAcceptance d req).run.Asks P :=
  asks_then (asks_loadInvite hP) fun _ => asks_next (hP _ trivial) fun _ =>
    asks_guard fun _ => asks_guard fun _ => asks_guard fun _ =>
    asks_then (asks_verifyAdminProof hP) fun _ => asks_then (asks_ensureOwnDevice hP) fun _ =>
    asks_then (asks_ensureNotMember hP) fun _ => trivial

theorem asks_acceptGroupInvite {req : AcceptRequest}
    (hin : ∀ leaf, P (.insertGroupMember d leaf)) (ha : ∀ e c t now, P (.advanceGroupEpoch e c t now))
    (hde : P (.deleteGroupInvite req.inviteId)) : (acceptGroupInvite d req).run.Asks P := by
  refine asks_then (asks_checkAcceptance hP) fun invite => asks_next (hP _ trivial) fun leaf =>
    asks_next (hP _ trivial) fun now => asks_next (hin _) fun _ =>
    asks_next (ha _ _ _ _) fun advanced => asks_guard fun _ => ?_
  exact asks_next hde fun _ => asks_next (hP _ trivial) fun _ => trivial

theorem asks_declineGroupInvite {i : String} (hde : P (.deleteGroupInvite i)) :
    (declineGroupInvite d i).run.Asks P := by
  refine asks_next (hP _ trivial) fun target => ?_
  cases target with
  | none => trivial
  | some d' => exact asks_guard fun _ => asks_next hde fun _ => trivial

omit hP in
theorem asks_removeDevice (hme : P (.removeGroupMember d)) (ha : P (.removeGroupAdminRole d)) :
    (removeDevice d).run.Asks P :=
  asks_next hme fun _ => asks_next ha fun _ => trivial

theorem asks_leaveGroup {p : Bytes} (hme : P (.removeGroupMember d))
    (ha : P (.removeGroupAdminRole d)) : (leaveGroup d p).run.Asks P := by
  refine asks_then (asks_ensureNotDissolved hP) fun _ => asks_then (asks_ensureMember hP) fun _ =>
    asks_then (asks_ensureNotCreator hP) fun _ => asks_guard fun _ =>
    asks_next (hP _ trivial) fun now => asks_then (asks_removeDevice hme ha) fun _ => ?_
  exact asks_next (hP _ trivial) fun _ => trivial

theorem asks_removeMember {target : String} {p : Bytes}
    (hme : P (.removeGroupMember target)) (ha : P (.removeGroupAdminRole target)) :
    (removeMember d target p).run.Asks P := by
  refine asks_then (asks_ensureAdmin hP) fun _ => asks_then (asks_verifyAdminProof hP) fun _ =>
    asks_then (asks_ensureNotDissolved hP) fun _ => asks_then (asks_ensureMember hP) fun _ =>
    asks_then (asks_ensureNotCreator hP) fun _ => asks_guard fun _ =>
    asks_next (hP _ trivial) fun now => asks_then (asks_removeDevice hme ha) fun _ => ?_
  exact asks_next (hP _ trivial) fun _ => asks_next (hP _ trivial) fun _ => trivial

theorem asks_delegateAdmin {target : String} {role : Option AdminRole}
    (hu : ∀ r, P (.upsertGroupAdminRole target r)) : (delegateAdmin d target role).run.Asks P := by
  refine asks_then (asks_ensureAdmin hP) fun _ => asks_then (asks_verifyAdminProof hP) fun _ =>
    asks_then (asks_ensureNotDissolved hP) fun _ => asks_then (asks_ensureMember hP) fun _ =>
    asks_then asks_check fun role => asks_then (asks_ensureNotCreator hP) fun _ =>
    asks_next (hP _ trivial) fun now => ?_
  exact asks_next (hu _) fun _ => trivial

theorem asks_ensureCreator : (ensureCreator d).run.Asks P :=
  asks_then (asks_checkGroupAdmin hP) fun _ => asks_ensure

theorem asks_ensureHeir : (ensureHeir d).run.Asks P :=
  asks_then (asks_checkGroupAdmin hP) fun _ => asks_guard fun _ => asks_ensure

theorem asks_transferOwnership {newOwner : String}
    (htr : P (.transferGroupOwnership d newOwner)) : (transferOwnership d newOwner).run.Asks P := by
  refine asks_then (asks_ensureCreator hP) fun _ => asks_then (asks_ensureHeir hP) fun _ =>
    asks_then (asks_verifyAdminProof hP) fun _ => asks_then (asks_verifyAdminProof hP) fun _ =>
    asks_next (hP _ trivial) fun now => ?_
  exact asks_next htr fun _ => asks_guard fun _ => trivial

theorem asks_dissolveGroup (hdi : ∀ now, P (.setGroupDissolvedAt now)) : (dissolveGroup d).run.Asks P := by
  refine asks_then (asks_ensureAdmin hP) fun _ => asks_then (asks_verifyAdminProof hP) fun _ =>
    asks_then (asks_ensureNotDissolved hP) fun _ => asks_next (hP _ trivial) fun now => ?_
  exact asks_next (hdi _) fun _ => asks_next (hP _ trivial) fun _ => trivial

theorem asks_submitCommit {req : CommitRequest}
    (ha : ∀ e c t now, P (.advanceGroupEpoch e c t now)) : (submitCommit d req).run.Asks P := by
  refine asks_then (asks_ensureMember hP) fun _ => asks_guard fun _ => asks_guard fun _ =>
    asks_then (asks_ensureNotDissolved hP) fun _ => asks_next (hP _ trivial) fun now => ?_
  exact asks_next (ha _ _ _ _) fun _ => asks_guard fun _ => trivial

theorem asks_catchUp {known : Option Nat} {g : Group} : (catchUp known g).run.Asks P := by
  cases known with
  | none => trivial
  | some known =>
    simp only [catchUp]
    split
    · exact asks_next (hP _ trivial) fun _ => trivial
    · trivial

theorem asks_getGroupState {known : Option Nat} : (getGroupState d known).run.Asks P :=
  asks_then (asks_ensureMember hP) fun _ => asks_then (asks_activeGroup hP) fun _ =>
    asks_next (hP _ trivial) fun _ => asks_next (hP _ trivial) fun _ =>
    asks_then (asks_catchUp hP) fun _ => trivial

end

theorem asks_call (c : GroupOp) : c.call.run.Asks c.MayAsk := by
  have hre : ∀ q : GroupStatement, q.Reads → c.MayAsk q := fun q hq => .inl hq
  cases c with
  | createGroup d req =>
    exact asks_createGroup hre fun g hep hma hpo => .inr ⟨rfl, hep, hma, hpo⟩
  | inviteToGroup d req => exact asks_inviteToGroup hre fun _ => .inr trivial
  | acceptGroupInvite d req =>
    exact asks_acceptGroupInvite hre (fun _ => .inr rfl) (fun _ _ _ _ => .inr trivial) (.inr rfl)
  | declineGroupInvite d i => exact asks_declineGroupInvite hre (.inr rfl)
  | leaveGroup d p => exact asks_leaveGroup hre (.inr rfl) (.inr rfl)
  | removeMember d t p => exact asks_removeMember hre (.inr rfl) (.inr rfl)
  | delegateAdmin d t role => exact asks_delegateAdmin hre fun _ => .inr rfl
  | transferOwnership d o => exact asks_transferOwnership hre (.inr ⟨rfl, rfl⟩)
  | dissolveGroup d => exact asks_dissolveGroup hre fun _ => .inr trivial
  | submitCommit d req => exact asks_submitCommit hre fun _ _ _ _ => .inr trivial
  | getGroupState d known => exact asks_getGroupState hre

/-! ### A small group -/

def smallGroup : Directory where
  now := 1000
  group := some ⟨0, [1], 16, 30, false, 0, none⟩
  members := [⟨"a", 0⟩]
  admins := update (fun _ => none) "a" (some ⟨.full, true⟩)
  invites := [⟨"i", "b", 0, 2000⟩]
  commits := []

def emptyDirectory : Directory where
  now := 1000
  group := none
  members := []
  admins := fun _ => none
  invites := []
  commits := []

def granted : Input Answer := ⟨.ok, ⟨true, none, none⟩⟩

def proceed (i k : Nat) : List GroupAction := List.replicate k (.step i granted)

def proceedFor (deviceId : String) (i k : Nat) : List GroupAction :=
  List.replicate k (.step i ⟨.ok, ⟨true, none, some deviceId⟩⟩)

end ConstructServer.Groups
