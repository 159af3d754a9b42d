import ConstructServer.Library.Machine
import ConstructServer.Library.RedisStream
import ConstructServer.Queue.Envelope
import ConstructServer.KeyService.Kt

/-!
# The Key Transparency log

A leaf is appended by a transaction that takes one lock for all appends, looks for the latest leaf
of the device and, if the key has changed, inserts a row at the next position. A proof request
ensures the leaves of its device in one or two such transactions and then loads the table in another
statement. Statements of other requests run in between, each sees what was committed before it, and
each can fail.
-/

namespace ConstructServer.KeyService

open Queue Machine List Option
open Redis (Outcome)

abbrev Hash32 := { b : Bytes // b.length = 32 }

section

variable (sha256 : Bytes → Hash32)

def leafHash (deviceId : String) (identityKey : Bytes) : Hash32 :=
  sha256 (0x00 :: (utf8 deviceId ++ identityKey))

def hybridLeafHash (deviceId : String) (hybridIdentityKey : Bytes) : Hash32 :=
  sha256 (0x02 :: (utf8 deviceId ++ hybridIdentityKey))

def nodeHash (left right : Hash32) : Hash32 := sha256 (0x01 :: (left.1 ++ right.1))

def treeRoot (leaves : List Hash32) : Hash32 := merkleRoot (nodeHash sha256) (sha256 []) leaves

def treeHeadSignable (treeSize : Nat) (root : Hash32) : Bytes :=
  utf8 "ConstructKT-v1" ++ Framing.beBytes 8 treeSize ++ root.1

end

/-- The two series of leaves of a device. -/
inductive LeafKind
  | identity
  | hybrid
deriving DecidableEq

/-- A row of `kt_leaves`. -/
structure Row where
  deviceId : String
  leafKind : LeafKind
  leafHash : Hash32
  treeIndex : Nat

section

def latestLeaf (rows : List Row) (deviceId : String) (kind : LeafKind) : Option Row :=
  (rows.filter fun r => r.deviceId = deviceId ∧ r.leafKind = kind).foldl
    (fun best r => match best with
      | none => some r
      | some b => if b.treeIndex < r.treeIndex then some r else some b) none

/-- `COALESCE(MAX(tree_index), -1) + 1`. -/
def nextIndex (rows : List Row) : Nat := ((rows.map Row.treeIndex).max?).elim 0 (· + 1)

def allLeaves (rows : List Row) : List Hash32 :=
  (rows.mergeSort fun a b => a.treeIndex ≤ b.treeIndex).map Row.leafHash

end

structure KtProof where
  leafIndex : Nat
  treeSize : Nat
  rootHash : Hash32
  proofHashes : List Hash32
  treeHeadSignature : Bytes

structure SignedTreeHead where
  treeSize : Nat
  rootHash : Hash32
  kid : Bytes
  signature : Bytes

structure KtProofs where
  identity : KtProof
  hybrid : Option KtProof
  head : Option SignedTreeHead

structure HeadKeys where
  sign : Bytes → Bytes
  ktHeadBody : Nat → Hash32 → Bytes
  delegated : Option (Bytes × (Bytes → Int → Option Bytes))

section

variable (sha256 : Bytes → Hash32) (keys : HeadKeys)

def proofAt (allLeaves : List Hash32) (index : Nat) : Except String (List Hash32 × Hash32) :=
  match generateInclusionProof (nodeHash sha256) (sha256 []) allLeaves index with
  | some proof => .ok proof
  | none => .error ("inclusion proof generation failed for index " ++ toString index)

def proofsFromSnapshot (allLeaves : List Hash32) (identityIndex : Nat) (hybridIndex : Option Nat)
    (now : Int) : Except String KtProofs := do
  let treeSize := allLeaves.length
  let (identityHashes, root) ← proofAt sha256 allLeaves identityIndex
  let ed25519Head := keys.sign (treeHeadSignable treeSize root)
  let proof := fun leafIndex proofHashes =>
    KtProof.mk leafIndex treeSize root proofHashes ed25519Head
  let hybrid ← match hybridIndex with
    | some index => do
      let (hashes, _) ← proofAt sha256 allLeaves index
      pure (some (proof index hashes))
    | none => pure none
  let head := keys.delegated.bind fun signer =>
    (signer.2 (keys.ktHeadBody treeSize root) now).map fun signature =>
      SignedTreeHead.mk treeSize root signer.1 signature
  pure ⟨proof identityIndex identityHashes, hybrid, head⟩

end

/-- The committed rows, and whether a transaction holds the lock of the appends. -/
structure KtDb where
  rows : List Row
  locked : Bool

/-- The next statement of `db_ensure_leaf`. A row that is inserted is not seen before the commit. -/
inductive EnsurePhase
  | begin
  | lock
  | fetch
  | insert
  | commit (inserted : Option Row) (index : Nat)

/-- A call of `db_ensure_leaf`. -/
structure Ensure where
  deviceId : String
  leafKind : LeafKind
  lhash : Hash32
  phase : EnsurePhase

inductive EnsureResult
  | running (e : Ensure)
  | returned (index : Nat)
  | failed

def Ensure.holdsLock (e : Ensure) : Bool :=
  match e.phase with
  | .begin | .lock => false
  | .fetch | .insert | .commit _ _ => true

/-- One statement. A failed one ends the call and rolls back, and a commit whose reply is lost has
taken effect; `none` is a wait for the lock. -/
def Ensure.step (db : KtDb) (e : Ensure) (o : Outcome) : Option (KtDb × EnsureResult) :=
  match e.phase with
  | .begin => if o = .ok then some (db, .running { e with phase := .lock }) else some (db, .failed)
  | .lock =>
    if o ≠ .ok then some (db, .failed)
    else if db.locked then none
    else some ({ db with locked := true }, .running { e with phase := .fetch })
  | .fetch =>
    if o ≠ .ok then some ({ db with locked := false }, .failed)
    else
      match latestLeaf db.rows e.deviceId e.leafKind with
      | some latest =>
        if latest.leafHash = e.lhash then
          some (db, .running { e with phase := .commit none latest.treeIndex })
        else some (db, .running { e with phase := .insert })
      | none => some (db, .running { e with phase := .insert })
  | .insert =>
    let index := nextIndex db.rows
    -- The unique index on the position refuses a second row there.
    if o ≠ .ok ∨ ∃ r ∈ db.rows, r.treeIndex = index then some ({ db with locked := false }, .failed)
    else some (db, .running { e with
      phase := .commit (some ⟨e.deviceId, e.leafKind, e.lhash, index⟩) index })
  | .commit inserted index =>
    if o = .failed then some ({ db with locked := false }, .failed)
    else some (⟨db.rows ++ inserted.toList, false⟩, if o = .ok then .returned index else .failed)

/-- The arguments of `build_kt_proofs` that come from the request. -/
structure ProofRequest where
  deviceId : String
  identityKey : Bytes
  hybridIdentityKey : Option Bytes
  now : Int

/-- The position that `db_ensure_leaf` returned, and the rows that were committed then. -/
structure Ensured where
  index : Nat
  rows : List Row

/-- A call of `db_ensure_leaf`, or how far a proof request is. -/
inductive KtProcess
  | ensure (e : Ensure)
  | identity (req : ProofRequest) (e : Ensure)
  | hybrid (req : ProofRequest) (identity : Ensured) (e : Ensure)
  | load (req : ProofRequest) (identity : Ensured) (hybrid : Option Ensured)

/-- A proof request that was answered, with the rows its snapshot had. -/
structure Served where
  req : ProofRequest
  identity : Ensured
  hybrid : Option Ensured
  snapshot : List Row
  answer : Except String KtProofs

structure KtState where
  db : KtDb
  running : List KtProcess
  served : List Served

inductive KtAction
  | ensure (deviceId : String) (kind : LeafKind) (lhash : Hash32)
  | prove (req : ProofRequest)
  | statement (i : Nat) (o : Outcome)

section

variable (sha256 : Bytes → Hash32) (keys : HeadKeys)

def ProofRequest.ensureIdentity (req : ProofRequest) : Ensure :=
  ⟨req.deviceId, .identity, leafHash sha256 req.deviceId req.identityKey, .begin⟩

def ProofRequest.ensureHybrid (req : ProofRequest) (key : Bytes) : Ensure :=
  ⟨req.deviceId, .hybrid, hybridLeafHash sha256 req.deviceId key, .begin⟩

def KtProcess.afterEnsure (rows : List Row) (index : Nat) : KtProcess → Option KtProcess
  | .ensure _ => none
  | .identity req _ =>
    match req.hybridIdentityKey with
    | some key => some (.hybrid req ⟨index, rows⟩ (req.ensureHybrid sha256 key))
    | none => some (.load req ⟨index, rows⟩ none)
  | .hybrid req first _ => some (.load req first (some ⟨index, rows⟩))
  | .load req first second => some (.load req first second)

def KtProcess.ensuring : KtProcess → Option Ensure
  | .ensure e | .identity _ e | .hybrid _ _ e => some e
  | .load _ _ _ => none

def KtProcess.setEnsuring (p : KtProcess) (e : Ensure) : KtProcess :=
  match p with
  | .ensure _ => .ensure e
  | .identity req _ => .identity req e
  | .hybrid req first _ => .hybrid req first e
  | .load req first second => .load req first second

def serve (db : KtDb) (req : ProofRequest) (identity : Ensured) (hybrid : Option Ensured) : Served :=
  ⟨req, identity, hybrid, db.rows, proofsFromSnapshot sha256 keys (allLeaves db.rows) identity.index
    (hybrid.map Ensured.index) req.now⟩

def KtState.step (s : KtState) : KtAction → Option KtState
  | .ensure deviceId kind lhash =>
    some { s with running := s.running ++ [.ensure ⟨deviceId, kind, lhash, .begin⟩] }
  | .prove req => some { s with running := s.running ++ [.identity req (req.ensureIdentity sha256)] }
  | .statement i o =>
    match s.running[i]? with
    | none => none
    | some (.load req identity hybrid) =>
      if o = .ok then
        some { s with
          running := Machine.replace s.running i none
          served := s.served ++ [serve sha256 keys s.db req identity hybrid] }
      else some { s with running := Machine.replace s.running i none }
    | some p =>
      match p.ensuring.bind fun e => e.step s.db o with
      | none => none
      | some (db, .running e) =>
        some { s with db, running := Machine.replace s.running i (some (p.setEnsuring e)) }
      | some (db, .returned index) =>
        some { s with db, running := Machine.replace s.running i (p.afterEnsure sha256 db.rows index) }
      | some (db, .failed) => some { s with db, running := Machine.replace s.running i none }

def KtState.init (rows : List Row) : KtState := ⟨⟨rows, false⟩, [], []⟩

def Contiguous (rows : List Row) : Prop := rows.map Row.treeIndex = List.range rows.length

/-- The proof is accepted for the leaf against the root and the size it carries, which are those of
the snapshot and are signed. -/
def Proves (snapshot : List Row) (leaf : Hash32) (proof : KtProof) : Prop :=
  proof.treeSize = snapshot.length ∧ proof.rootHash = treeRoot sha256 (allLeaves snapshot) ∧
    proof.treeHeadSignature = keys.sign (treeHeadSignable proof.treeSize proof.rootHash) ∧
    verifyInclusion (nodeHash sha256) leaf proof.proofHashes proof.leafIndex proof.treeSize
      proof.rootHash = true

def CurrentLeaf (snapshot : List Row) (deviceId : String) (kind : LeafKind) (leaf : Hash32)
    (ensured : Ensured) : Prop :=
  ensured.rows <+: snapshot ∧
    latestLeaf ensured.rows deviceId kind = some ⟨deviceId, kind, leaf, ensured.index⟩

/-- An answer has a proof for each leaf of the device, and heads for the root and the size of the
proofs. -/
structure Matches (served : Served) (proofs : KtProofs) : Prop where
  identity : Proves sha256 keys served.snapshot
    (leafHash sha256 served.req.deviceId served.req.identityKey) proofs.identity
  current : CurrentLeaf served.snapshot served.req.deviceId .identity
    (leafHash sha256 served.req.deviceId served.req.identityKey) served.identity ∧
    proofs.identity.leafIndex = served.identity.index
  hybrid : ∀ key, served.req.hybridIdentityKey = some key → ∃ proof ensured,
    proofs.hybrid = some proof ∧ served.hybrid = some ensured ∧ proof.leafIndex = ensured.index ∧
      Proves sha256 keys served.snapshot (hybridLeafHash sha256 served.req.deviceId key) proof ∧
      CurrentLeaf served.snapshot served.req.deviceId .hybrid
        (hybridLeafHash sha256 served.req.deviceId key) ensured
  head : ∀ head ∈ proofs.head, head.treeSize = proofs.identity.treeSize ∧
    head.rootHash = proofs.identity.rootHash ∧ ∃ signer ∈ keys.delegated, head.kid = signer.1 ∧
      signer.2 (keys.ktHeadBody head.treeSize head.rootHash) served.req.now = some head.signature

end

section

variable {rows : List Row} {r : Row} {deviceId : String} {kind : LeafKind} {i : Nat}

theorem contiguous_nil : Contiguous [] := rfl

theorem Contiguous.treeIndex_eq (h : Contiguous rows) (hr : rows[i]? = some r) : r.treeIndex = i := by
  have hma : (rows.map Row.treeIndex)[i]? = some r.treeIndex := by rw [List.getElem?_map, hr]; rfl
  rw [h, List.getElem?_eq_some_iff] at hma
  obtain ⟨_, heq⟩ := hma
  rw [← heq, getElem_range]

theorem Contiguous.getElem?_treeIndex (h : Contiguous rows) (hr : r ∈ rows) :
    rows[r.treeIndex]? = some r := by
  obtain ⟨i, hi⟩ := mem_iff_getElem?.mp hr
  rwa [h.treeIndex_eq hi]

theorem Contiguous.treeIndex_lt (h : Contiguous rows) (hr : r ∈ rows) : r.treeIndex < rows.length :=
  (List.getElem?_eq_some_iff.mp (h.getElem?_treeIndex hr)).1

theorem Contiguous.nextIndex_eq (h : Contiguous rows) : nextIndex rows = rows.length := by
  unfold nextIndex
  rw [h]
  cases hl : rows.length with
  | zero => rfl
  | succ n =>
    have hma : (List.range (n + 1)).max? = some n := by
      rw [List.max?_eq_some_iff]
      simp only [mem_range]
      exact ⟨by omega, fun b hb => by omega⟩
    rw [hma]
    rfl

theorem Contiguous.append (h : Contiguous rows) (hr : r.treeIndex = rows.length) :
    Contiguous (rows ++ [r]) := by
  unfold Contiguous at h ⊢
  rw [map_append, h, length_append, map_singleton, hr, length_singleton, range_succ]

theorem Contiguous.allLeaves_eq (h : Contiguous rows) : allLeaves rows = rows.map Row.leafHash := by
  have hso : rows.Pairwise fun a b => decide (a.treeIndex ≤ b.treeIndex) = true := by
    have hr : (rows.map Row.treeIndex).Pairwise (· < ·) := h ▸ pairwise_lt_range
    exact (pairwise_map.mp hr).imp fun hlt => decide_eq_true hlt.le
  rw [allLeaves, mergeSort_of_pairwise hso]

theorem mem_of_foldl_latest {best : Option Row} {l : List Row} (h : l.foldl (fun best r => match best with
      | none => some r
      | some b => if b.treeIndex < r.treeIndex then some r else some b) best = some r) :
    best = some r ∨ r ∈ l := by
  induction l generalizing best with
  | nil => exact .inl h
  | cons x l ih =>
    rcases ih h with hbe | hm
    · cases best with
      | none => exact .inr (by simp [some_inj.mp hbe])
      | some b =>
        dsimp only at hbe
        split_ifs at hbe
        · exact .inr (by simp [some_inj.mp hbe])
        · exact .inl hbe
    · exact .inr (mem_cons_of_mem _ hm)

theorem mem_of_latestLeaf (h : latestLeaf rows deviceId kind = some r) :
    r ∈ rows ∧ r.deviceId = deviceId ∧ r.leafKind = kind := by
  rcases mem_of_foldl_latest h with hno | hm
  · cases hno
  · obtain ⟨hm, hr⟩ := mem_filter.mp hm
    exact ⟨hm, of_decide_eq_true hr⟩

theorem latestLeaf_append (h : Contiguous rows) (hr : r.treeIndex = rows.length) :
    latestLeaf (rows ++ [r]) r.deviceId r.leafKind = some r := by
  have hsi : [r].filter (fun x => x.deviceId = r.deviceId ∧ x.leafKind = r.leafKind) = [r] := by
    simp
  unfold latestLeaf
  rw [filter_append, foldl_append, hsi, foldl_cons, foldl_nil]
  cases hbe : (rows.filter fun x => x.deviceId = r.deviceId ∧ x.leafKind = r.leafKind).foldl
    (fun best r => match best with
      | none => some r
      | some b => if b.treeIndex < r.treeIndex then some r else some b) none with
  | none => rfl
  | some b =>
    have hb : b ∈ rows := (mem_of_latestLeaf hbe).1
    have hlt := h.treeIndex_lt hb
    dsimp only
    rw [if_pos (by omega)]

end

section

def EnsureInvariant (rows : List Row) (e : Ensure) : Prop :=
  match e.phase with
  | .begin | .lock | .fetch | .insert => True
  | .commit none index =>
    latestLeaf rows e.deviceId e.leafKind = some ⟨e.deviceId, e.leafKind, e.lhash, index⟩
  | .commit (some row) index =>
    row = ⟨e.deviceId, e.leafKind, e.lhash, rows.length⟩ ∧ index = rows.length

def SameLeaf (e e' : Ensure) : Prop :=
  e'.deviceId = e.deviceId ∧ e'.leafKind = e.leafKind ∧ e'.lhash = e.lhash

/-- What a statement of `db_ensure_leaf` does. -/
inductive EnsureCase (db : KtDb) (e : Ensure) : KtDb × EnsureResult → Prop
  | waits (e' : Ensure) (hsame : SameLeaf e e') (he : e.holdsLock = false)
    (he' : e'.holdsLock = false) : EnsureCase db e (db, .running e')
  | locks (e' : Ensure) (hsame : SameLeaf e e') (he : e.holdsLock = false)
    (he' : e'.holdsLock = true) (hfree : db.locked = false) (hinv : EnsureInvariant db.rows e') :
    EnsureCase db e ({ db with locked := true }, .running e')
  | goesOn (e' : Ensure) (hsame : SameLeaf e e') (he : e.holdsLock = true)
    (he' : e'.holdsLock = true) (hinv : EnsureInvariant db.rows e') :
    EnsureCase db e (db, .running e')
  | refused (he : e.holdsLock = false) : EnsureCase db e (db, .failed)
  | rolledBack (he : e.holdsLock = true) : EnsureCase db e ({ db with locked := false }, .failed)
  | committed (rows : List Row) (result : EnsureResult) (he : e.holdsLock = true)
    (hrows : rows = db.rows ∨ ∃ row, rows = db.rows ++ [row] ∧ row.treeIndex = db.rows.length)
    (hresult : result = .failed ∨ ∃ index, result = .returned index ∧
      latestLeaf rows e.deviceId e.leafKind = some ⟨e.deviceId, e.leafKind, e.lhash, index⟩) :
    EnsureCase db e (⟨rows, false⟩, result)

theorem ensure_case {db : KtDb} {e : Ensure} {o : Outcome} {result : KtDb × EnsureResult}
    (hr : Contiguous db.rows) (hinv : EnsureInvariant db.rows e)
    (h : e.step db o = some result) : EnsureCase db e result := by
  obtain ⟨deviceId, kind, lhash, phase⟩ := e
  cases phase with
  | begin =>
    simp only [Ensure.step] at h
    split_ifs at h
    · cases h
      exact .waits _ ⟨rfl, rfl, rfl⟩ rfl rfl
    · cases h
      exact .refused rfl
  | lock =>
    simp only [Ensure.step] at h
    split_ifs at h with hok hlo
    · cases h
      exact .refused rfl
    · cases h
      exact .locks _ ⟨rfl, rfl, rfl⟩ rfl rfl (by simpa using hlo) trivial
  | fetch =>
    simp only [Ensure.step] at h
    split_ifs at h
    · cases h
      exact .rolledBack rfl
    · split at h
      · rename_i latest hl
        split_ifs at h with hh
        · cases h
          refine .goesOn _ ⟨rfl, rfl, rfl⟩ rfl rfl ?_
          obtain ⟨-, hde, hki⟩ := mem_of_latestLeaf hl
          show latestLeaf db.rows deviceId kind = _
          rw [hl, ← hh, ← hde, ← hki]
        · cases h
          exact .goesOn _ ⟨rfl, rfl, rfl⟩ rfl rfl trivial
      · cases h
        exact .goesOn _ ⟨rfl, rfl, rfl⟩ rfl rfl trivial
  | insert =>
    simp only [Ensure.step] at h
    split_ifs at h
    · cases h
      exact .rolledBack rfl
    · cases h
      exact .goesOn _ ⟨rfl, rfl, rfl⟩ rfl rfl ⟨by rw [hr.nextIndex_eq], hr.nextIndex_eq⟩
  | commit inserted index =>
    simp only [Ensure.step] at h
    split_ifs at h with hf hok
    · cases h
      exact .rolledBack rfl
    all_goals
      cases h
      cases inserted with
      | none =>
        rw [toList_none, append_nil]
        refine .committed _ _ rfl (.inl rfl) ?_
        first | exact .inr ⟨index, rfl, hinv⟩ | exact .inl rfl
      | some row =>
        obtain ⟨hro, hin⟩ : row = ⟨deviceId, kind, lhash, db.rows.length⟩ ∧
          index = db.rows.length := hinv
        subst hro hin
        refine .committed _ _ rfl (.inr ⟨_, rfl, rfl⟩) ?_
        first | exact .inr ⟨_, rfl, latestLeaf_append hr rfl⟩ | exact .inl rfl

theorem EnsureCase.prefix_rows {db : KtDb} {e : Ensure} {result : KtDb × EnsureResult}
    (h : EnsureCase db e result) : db.rows <+: result.1.rows := by
  cases h with
  | waits | locks | goesOn | refused | rolledBack => exact prefix_rfl
  | committed rows result he hr hre =>
    rcases hr with rfl | ⟨row, rfl, -⟩
    · exact prefix_rfl
    · exact prefix_append _ _

theorem ensureInvariant_of_not_holdsLock {e : Ensure} (rows : List Row) (h : e.holdsLock = false) :
    EnsureInvariant rows e := by
  obtain ⟨deviceId, kind, lhash, phase⟩ := e
  cases phase with
  | begin | lock => trivial
  | fetch | insert | commit => cases h

end

section

variable {sha256 : Bytes → Hash32} {keys : HeadKeys} {rows rows' : List Row} {deviceId : String}
  {kind : LeafKind} {leaf : Hash32} {ensured : Ensured}

theorem CurrentLeaf.mono (h : CurrentLeaf rows deviceId kind leaf ensured) (hr : rows <+: rows') :
    CurrentLeaf rows' deviceId kind leaf ensured :=
  ⟨h.1.trans hr, h.2⟩

theorem CurrentLeaf.getElem?_allLeaves (h : CurrentLeaf rows deviceId kind leaf ensured)
    (hr : Contiguous rows) : (allLeaves rows)[ensured.index]? = some leaf := by
  have hm : ⟨deviceId, kind, leaf, ensured.index⟩ ∈ rows := h.1.subset (mem_of_latestLeaf h.2).1
  rw [hr.allLeaves_eq, List.getElem?_map, hr.getElem?_treeIndex hm, map_some]

theorem CurrentLeaf.exists_proofAt (h : CurrentLeaf rows deviceId kind leaf ensured) (hr : Contiguous rows) :
    ∃ hashes, proofAt sha256 (allLeaves rows) ensured.index = .ok (hashes, treeRoot sha256 (allLeaves rows)) ∧
      verifyInclusion (nodeHash sha256) leaf hashes ensured.index (allLeaves rows).length
        (treeRoot sha256 (allLeaves rows)) = true := by
  have hl := h.getElem?_allLeaves hr
  obtain ⟨hashes, hpr⟩ := @exists_proof _ (nodeHash sha256) (sha256 []) _ _ (List.getElem?_eq_some_iff.mp hl).1
  refine ⟨hashes, ?_, verifyInclusion_generate hl hpr⟩
  rw [proofAt, hpr]
  rfl

variable {leaves hashes : List Hash32} {root : Hash32} {index : Nat} {now : Int}

theorem delegatedHead_spec {head : SignedTreeHead} (h : keys.delegated.bind (fun signer =>
      (signer.2 (keys.ktHeadBody leaves.length root) now).map fun signature =>
        SignedTreeHead.mk leaves.length root signer.1 signature) = some head) :
    head.treeSize = leaves.length ∧ head.rootHash = root ∧ ∃ signer ∈ keys.delegated, head.kid = signer.1 ∧
        signer.2 (keys.ktHeadBody head.treeSize head.rootHash) now = some head.signature := by
  obtain ⟨signer, hsi, hs⟩ := bind_eq_some_iff.mp h
  obtain ⟨signature, hsign, rfl⟩ := map_eq_some_iff.mp hs
  exact ⟨rfl, rfl, signer, hsi, rfl, hsign⟩

theorem exists_proofsFromSnapshot {hybrid : Option (Nat × List Hash32)}
    (hid : proofAt sha256 leaves index = .ok (hashes, root))
    (hh : ∀ at' ∈ hybrid, ∃ root', proofAt sha256 leaves at'.1 = .ok (at'.2, root')) :
    ∃ head, proofsFromSnapshot sha256 keys leaves index (hybrid.map Prod.fst) now =
        .ok ⟨⟨index, leaves.length, root, hashes, keys.sign (treeHeadSignable leaves.length root)⟩,
          hybrid.map fun at' => ⟨at'.1, leaves.length, root, at'.2,
            keys.sign (treeHeadSignable leaves.length root)⟩, head⟩ ∧
      ∀ h ∈ head, h.treeSize = leaves.length ∧ h.rootHash = root ∧
        ∃ signer ∈ keys.delegated, h.kid = signer.1 ∧
          signer.2 (keys.ktHeadBody h.treeSize h.rootHash) now = some h.signature := by
  refine ⟨_, ?_, fun _ h => delegatedHead_spec h⟩
  cases hybrid with
  | none =>
    simp only [proofsFromSnapshot, hid]
    rfl
  | some at' =>
    obtain ⟨root', hro⟩ := hh at' rfl
    simp only [proofsFromSnapshot, hid, map_some, hro]
    rfl

end

section

variable (sha256 : Bytes → Hash32) (keys : HeadKeys)

def KtProcess.holdsLock (p : KtProcess) : Bool := p.ensuring.any Ensure.holdsLock

def Progress (rows : List Row) : KtProcess → Prop
  | .ensure _ => True
  | .identity req e => SameLeaf (req.ensureIdentity sha256) e
  | .hybrid req first e =>
    CurrentLeaf rows req.deviceId .identity (leafHash sha256 req.deviceId req.identityKey) first ∧
      ∃ key, req.hybridIdentityKey = some key ∧ SameLeaf (req.ensureHybrid sha256 key) e
  | .load req first second =>
    CurrentLeaf rows req.deviceId .identity (leafHash sha256 req.deviceId req.identityKey) first ∧
      match req.hybridIdentityKey with
      | none => second = none
      | some key => ∃ ensured, second = some ensured ∧
        CurrentLeaf rows req.deviceId .hybrid (hybridLeafHash sha256 req.deviceId key) ensured

structure ProcessInvariant (rows : List Row) (p : KtProcess) : Prop where
  ensuring : ∀ e ∈ p.ensuring, EnsureInvariant rows e
  progress : Progress sha256 rows p

/-- The positions are contiguous, one transaction at most holds the lock, and every answer matches
its snapshot. -/
structure KtInvariant (s : KtState) : Prop where
  contiguous : Contiguous s.db.rows
  lock : s.running.countP KtProcess.holdsLock = if s.db.locked then 1 else 0
  running : ∀ p ∈ s.running, ProcessInvariant sha256 s.db.rows p
  served : ∀ served ∈ s.served, ∃ proofs, served.answer = .ok proofs ∧
    Matches sha256 keys served proofs

def KtProcess.after (rows : List Row) (p : KtProcess) : EnsureResult → Option KtProcess
  | .running e => some (p.setEnsuring e)
  | .returned index => p.afterEnsure sha256 rows index
  | .failed => none

end

section

variable {sha256 : Bytes → Hash32} {keys : HeadKeys} {rows rows' : List Row} {p : KtProcess}
  {e e' : Ensure} {s s' : KtState} {i : Nat}

theorem Progress.mono (h : Progress sha256 rows p) (hr : rows <+: rows') : Progress sha256 rows' p := by
  cases p with
  | ensure e => trivial
  | identity req e => exact h
  | hybrid req first e => exact ⟨h.1.mono hr, h.2⟩
  | load req first second =>
    obtain ⟨hf, hse⟩ := h
    refine ⟨hf.mono hr, ?_⟩
    split at hse
    · exact hse
    · obtain ⟨ensured, hse, hcu⟩ := hse
      exact ⟨ensured, hse, hcu.mono hr⟩

theorem ensuring_setEnsuring (hp : p.ensuring = some e) (e' : Ensure) :
    (p.setEnsuring e').ensuring = some e' := by
  cases p with
  | load req first second => cases hp
  | ensure | identity | hybrid => rfl

theorem Progress.setEnsuring (h : Progress sha256 rows p) (hp : p.ensuring = some e)
    (hs : SameLeaf e e') : Progress sha256 rows (p.setEnsuring e') := by
  obtain ⟨hde, hki, hh⟩ := hs
  cases p with
  | ensure e => trivial
  | identity req e =>
    cases hp
    exact ⟨hde.trans h.1, hki.trans h.2.1, hh.trans h.2.2⟩
  | hybrid req first e =>
    cases hp
    obtain ⟨hf, key, hk, hl⟩ := h
    exact ⟨hf, key, hk, hde.trans hl.1, hki.trans hl.2.1, hh.trans hl.2.2⟩
  | load req first second => cases hp

theorem ProcessInvariant.afterEnsure {index : Nat} {q : KtProcess} (h : Progress sha256 rows p)
    (hp : p.ensuring = some e) (hl : latestLeaf rows e.deviceId e.leafKind =
      some ⟨e.deviceId, e.leafKind, e.lhash, index⟩) (hq : q ∈ p.afterEnsure sha256 rows index) :
    ProcessInvariant sha256 rows q ∧ q.holdsLock = false := by
  cases p with
  | ensure e => cases hq
  | identity req e =>
    cases hp
    obtain ⟨hde, hki, hh⟩ := h
    rw [hde, hki, hh] at hl
    simp only [KtProcess.afterEnsure] at hq
    split at hq
    · rename_i key hk
      cases hq
      refine ⟨⟨?_, ⟨prefix_rfl, hl⟩, key, hk, rfl, rfl, rfl⟩, rfl⟩
      rintro _ ⟨⟩
      exact ensureInvariant_of_not_holdsLock _ rfl
    · rename_i hno
      cases hq
      refine ⟨⟨?_, ⟨prefix_rfl, hl⟩, ?_⟩, rfl⟩
      · rintro _ ⟨⟩
      · rw [hno]
  | hybrid req first e =>
    cases hp
    cases hq
    obtain ⟨hf, key, hk, hde, hki, hh⟩ := h
    rw [hde, hki, hh] at hl
    refine ⟨⟨?_, hf, ?_⟩, rfl⟩
    · rintro _ ⟨⟩
    · rw [hk]
      exact ⟨_, rfl, prefix_rfl, hl⟩
  | load req first second => cases hp

theorem KtInvariant.replace (h : KtInvariant sha256 keys s) (hp : s.running[i]? = some p) {db : KtDb}
    {next : Option KtProcess} (hcon : Contiguous db.rows) (hr : s.db.rows <+: db.rows)
    (hh : db.rows = s.db.rows ∨ p.holdsLock = true)
    (hl : (if s.db.locked then 1 else 0) + next.toList.countP KtProcess.holdsLock =
      (if db.locked then 1 else 0) + if p.holdsLock then 1 else 0)
    (hn : ∀ q ∈ next, ProcessInvariant sha256 db.rows q) :
    KtInvariant sha256 keys { s with db, running := Machine.replace s.running i next } where
  contiguous := hcon
  lock := by
    have hco := countP_replace next KtProcess.holdsLock hp
    have hon := h.lock
    dsimp only
    omega
  running := by
    have hot : db.rows = s.db.rows ∨
        ∀ q ∈ Machine.replace s.running i none, q.holdsLock = false := by
      refine hh.imp_right fun hh => ?_
      have hco := countP_replace none KtProcess.holdsLock hp
      have hon := h.lock
      rw [if_pos hh, toList_none, countP_nil] at hco
      have hz : (Machine.replace s.running i none).countP KtProcess.holdsLock = 0 := by
        split at hon <;> omega
      simpa using countP_eq_zero.mp hz
    intro q hq
    rcases mem_replace_none_or_mem hq with hq | hq
    · have hinv := h.running q (mem_of_mem_replace_none hq)
      refine ⟨fun e he => ?_, hinv.progress.mono hr⟩
      rcases hot with hs | hot
      · rw [hs]
        exact hinv.ensuring e he
      · have hh := hot q hq
        rw [KtProcess.holdsLock, he, any_some] at hh
        exact ensureInvariant_of_not_holdsLock _ hh
    · exact hn q hq
  served := h.served

theorem holdsLock_of_ensuring (hp : p.ensuring = some e) : p.holdsLock = e.holdsLock := by
  rw [KtProcess.holdsLock, hp, any_some]

theorem KtInvariant.locked_of_holdsLock (h : KtInvariant sha256 keys s)
    (hp : s.running[i]? = some p) (hh : p.holdsLock = true) : s.db.locked = true := by
  have hpo : 0 < s.running.countP KtProcess.holdsLock :=
    countP_pos_iff.mpr ⟨p, mem_of_getElem? hp, hh⟩
  rw [h.lock] at hpo
  by_contra hf
  rw [if_neg hf] at hpo
  omega

theorem KtInvariant.ensure (h : KtInvariant sha256 keys s) (hp : s.running[i]? = some p)
    (he : p.ensuring = some e) {db : KtDb} {result : EnsureResult} (hca : EnsureCase s.db e (db, result)) :
    KtInvariant sha256 keys
      { s with db, running := Machine.replace s.running i (p.after sha256 db.rows result) } := by
  have hinv := h.running p (mem_of_getElem? hp)
  have hhe := holdsLock_of_ensuring he
  have hg := hca.prefix_rows
  -- A transaction that goes on holds the lock or not as its process then does.
  have hgOn : ∀ e', SameLeaf e e' → EnsureInvariant s.db.rows e' → (p.setEnsuring e').holdsLock = e'.holdsLock ∧
        ProcessInvariant sha256 s.db.rows (p.setEnsuring e') := by
    intro e' hs hkn
    have hen := ensuring_setEnsuring he e'
    refine ⟨holdsLock_of_ensuring hen, fun e'' he'' => ?_, hinv.progress.setEnsuring he hs⟩
    rw [hen] at he''
    cases he''
    exact hkn
  cases hca with
  | waits e' hs hf hf' =>
    obtain ⟨hn, hkn⟩ := hgOn e' hs (ensureInvariant_of_not_holdsLock _ hf')
    refine h.replace hp h.contiguous prefix_rfl (.inl rfl) ?_ ?_
    · simp [KtProcess.after, hn, hhe, hf, hf']
    · rintro _ ⟨⟩
      exact hkn
  | locks e' hs hf hh hu hkn =>
    obtain ⟨hn, hkn⟩ := hgOn e' hs hkn
    refine h.replace hp h.contiguous prefix_rfl (.inl rfl) ?_ ?_
    · simp [KtProcess.after, hn, hhe, hf, hh, hu]
    · rintro _ ⟨⟩
      exact hkn
  | goesOn e' hs hh hh' hkn =>
    obtain ⟨hn, hkn⟩ := hgOn e' hs hkn
    refine h.replace hp h.contiguous prefix_rfl (.inl rfl) ?_ ?_
    · simp [KtProcess.after, hn, hhe, hh, hh']
    · rintro _ ⟨⟩
      exact hkn
  | refused hf =>
    refine h.replace hp h.contiguous prefix_rfl (.inl rfl) ?_ ?_
    · simp [KtProcess.after, hhe, hf]
    · rintro _ ⟨⟩
  | rolledBack hh =>
    have hl := h.locked_of_holdsLock hp (hhe.trans hh)
    refine h.replace hp h.contiguous prefix_rfl (.inl rfl) ?_ ?_
    · simp [KtProcess.after, hhe, hh, hl]
    · rintro _ ⟨⟩
  | committed rows _ hh hr hre =>
    have hl := h.locked_of_holdsLock hp (hhe.trans hh)
    have hco : Contiguous rows := by
      rcases hr with rfl | ⟨row, rfl, hro⟩
      · exact h.contiguous
      · exact h.contiguous.append hro
    have hn : ∀ q ∈ p.after sha256 rows result, ProcessInvariant sha256 rows q ∧
        q.holdsLock = false := by
      rcases hre with rfl | ⟨index, rfl, hla⟩
      · rintro _ ⟨⟩
      · exact fun q hq => ProcessInvariant.afterEnsure (hinv.progress.mono hg) he hla hq
    refine h.replace hp hco hg (.inr (hhe.trans hh)) ?_ fun q hq => (hn q hq).1
    have hno : (p.after sha256 rows result).toList.countP KtProcess.holdsLock = 0 :=
      countP_eq_zero.mpr fun q hq => by simp [(hn q (mem_toList.mp hq)).2]
    simp [hno, hhe, hh, hl]

theorem matches_serve {req : ProofRequest} {first : Ensured} {second : Option Ensured}
    (hr : Contiguous s.db.rows) (h : Progress sha256 s.db.rows (.load req first second)) :
    ∃ proofs, (serve sha256 keys s.db req first second).answer = .ok proofs ∧
      Matches sha256 keys (serve sha256 keys s.db req first second) proofs := by
  obtain ⟨hf, hse⟩ := h
  have hl : (allLeaves s.db.rows).length = s.db.rows.length := by
    rw [hr.allLeaves_eq, length_map]
  obtain ⟨hashes, hpr, ha⟩ := @CurrentLeaf.exists_proofAt sha256 _ _ _ _ _ hf hr
  cases hk : req.hybridIdentityKey with
  | none =>
    rw [hk] at hse
    cases hse
    obtain ⟨head, han, hh⟩ := @exists_proofsFromSnapshot sha256 keys _ _ _ _ req.now none hpr (by rintro _ ⟨⟩)
    refine ⟨_, han, ⟨hl, rfl, rfl, ha⟩, ⟨hf, rfl⟩, fun key hk' => ?_, hh⟩
    cases hk.symm.trans hk'
  | some key =>
    rw [hk] at hse
    obtain ⟨ensured, rfl, hcu⟩ := hse
    obtain ⟨hashes', hp', ha'⟩ :=
      @CurrentLeaf.exists_proofAt sha256 _ _ _ _ _ hcu hr
    obtain ⟨head, han, hh⟩ := @exists_proofsFromSnapshot sha256 keys _ _ _ _ req.now
      (some (ensured.index, hashes')) hpr (by rintro _ ⟨⟩; exact ⟨_, hp'⟩)
    refine ⟨_, han, ⟨hl, rfl, rfl, ha⟩, ⟨hf, rfl⟩, fun key' hk' => ?_, hh⟩
    obtain rfl : key = key' := some_inj.mp (hk.symm.trans hk')
    exact ⟨_, ensured, rfl, rfl, rfl, ⟨hl, rfl, rfl, ha'⟩, hcu⟩

theorem KtInvariant.load (h : KtInvariant sha256 keys s) {req : ProofRequest} {first : Ensured}
    {second : Option Ensured} (hp : s.running[i]? = some (.load req first second)) :
    KtInvariant sha256 keys { s with running := Machine.replace s.running i none } ∧
      KtInvariant sha256 keys { s with
        running := Machine.replace s.running i none
        served := s.served ++ [serve sha256 keys s.db req first second] } := by
  have hen : KtInvariant sha256 keys
      { s with db := s.db, running := Machine.replace s.running i none } :=
    h.replace hp h.contiguous prefix_rfl (.inl rfl) rfl (by rintro _ ⟨⟩)
  refine ⟨hen, hen.contiguous, hen.lock, hen.running, fun served hse => ?_⟩
  rcases mem_concat hse with hse | rfl
  · exact h.served served hse
  · exact matches_serve h.contiguous (h.running _ (mem_of_getElem? hp)).progress

theorem step_statement {o : Outcome} (hp : s.running[i]? = some p) (he : p.ensuring = some e) :
    s.step sha256 keys (.statement i o) = (e.step s.db o).map fun result =>
      { s with
        db := result.1
        running := Machine.replace s.running i (p.after sha256 result.1.rows result.2) } := by
  cases p with
  | load req first second => cases he
  | ensure e' | identity req e' | hybrid req first e' =>
    cases he
    simp only [KtState.step, hp, KtProcess.ensuring, bind_some]
    rcases e.step s.db o with _ | ⟨db, _ | _ | _⟩ <;> rfl

theorem KtInvariant.start (h : KtInvariant sha256 keys s) (hf : p.holdsLock = false)
    (hp : ProcessInvariant sha256 s.db.rows p) :
    KtInvariant sha256 keys { s with running := s.running ++ [p] } where
  contiguous := h.contiguous
  lock := by simpa [hf] using h.lock
  running := by
    intro q hq
    rcases mem_append.mp hq with hq | hq
    · exact h.running q hq
    · rwa [mem_singleton.mp hq]
  served := h.served

theorem KtInvariant.step {a : KtAction} (h : KtInvariant sha256 keys s)
    (hst : s.step sha256 keys a = some s') :
    KtInvariant sha256 keys s' ∧ s.db.rows <+: s'.db.rows := by
  cases a with
  | ensure deviceId kind lhash =>
    cases hst
    refine ⟨h.start rfl ⟨?_, trivial⟩, prefix_rfl⟩
    rintro _ ⟨⟩
    exact ensureInvariant_of_not_holdsLock _ rfl
  | prove req =>
    cases hst
    refine ⟨h.start rfl ⟨?_, rfl, rfl, rfl⟩, prefix_rfl⟩
    rintro _ ⟨⟩
    exact ensureInvariant_of_not_holdsLock _ rfl
  | statement i o =>
    cases hp : s.running[i]? with
    | none =>
      rw [KtState.step, hp] at hst
      cases hst
    | some p =>
      cases he : p.ensuring with
      | none =>
        cases p with
        | load req first second =>
          simp only [KtState.step, hp] at hst
          split_ifs at hst
          · cases hst
            exact ⟨(h.load hp).2, prefix_rfl⟩
          · cases hst
            exact ⟨(h.load hp).1, prefix_rfl⟩
        | ensure | identity | hybrid => cases he
      | some e =>
        rw [step_statement hp he] at hst
        obtain ⟨⟨db, result⟩, hr, rfl⟩ := map_eq_some_iff.mp hst
        have hinv := (h.running p (mem_of_getElem? hp)).ensuring e he
        have hca := ensure_case h.contiguous hinv hr
        exact ⟨h.ensure hp he hca, hca.prefix_rows⟩

theorem ktInvariant_init (hr : Contiguous rows) : KtInvariant sha256 keys (.init rows) where
  contiguous := hr
  lock := rfl
  running := by rintro _ ⟨⟩
  served := by rintro _ ⟨⟩

theorem KtInvariant.run {as : List KtAction} (h : KtInvariant sha256 keys s)
    (hru : run (KtState.step sha256 keys) s as = some s') :
    KtInvariant sha256 keys s' ∧ s.db.rows <+: s'.db.rows :=
  run_invariant (P := fun t => KtInvariant sha256 keys t ∧ s.db.rows <+: t.db.rows)
    (G := fun _ _ => True)
    (fun ht _ hst => ⟨(ht.1.step hst).1, ht.2.trans (ht.1.step hst).2⟩)
    ⟨h, prefix_rfl⟩ (along_of_forall fun _ _ => trivial) hru

/-- In every reachable state the positions are `0..n-1` and every request that was answered got
proofs that are accepted for its leaves under the head that was sent; every later snapshot extends
the snapshot of the state. -/
theorem kt_log_append_only {as : List KtAction} (hrows : Contiguous rows)
    (hrun : run (KtState.step sha256 keys) (.init rows) as = some s) : Contiguous s.db.rows ∧
      (∀ bs s', run (KtState.step sha256 keys) s bs = some s' →
        allLeaves s.db.rows <+: allLeaves s'.db.rows) ∧ ∀ served ∈ s.served, ∃ proofs, served.answer = .ok proofs ∧
        Matches sha256 keys served proofs := by
  have hinv := ((ktInvariant_init hrows).run hrun).1
  refine ⟨hinv.contiguous, fun bs s' hrun' => ?_, hinv.served⟩
  obtain ⟨hinv', hgrows⟩ := hinv.run hrun'
  rw [hinv.contiguous.allLeaves_eq, hinv'.contiguous.allLeaves_eq]
  exact hgrows.map _

def firstBytes (b : Bytes) : Hash32 :=
  ⟨(b ++ List.replicate 32 0).take 32, by simp⟩

def rotationSchedule : List KtAction :=
  [.prove ⟨"device", [1], some [2], 0⟩, .ensure "device" .identity (leafHash firstBytes "device" [3]),
    .statement 0 .ok, .statement 1 .ok, .statement 1 .ok, .statement 1 .ok, .statement 1 .ok,
    .statement 1 .ok, .statement 0 .ok, .statement 0 .ok, .statement 0 .ok, .statement 0 .ok,
    .statement 0 .ok, .statement 0 .ok, .statement 0 .ok, .statement 0 .ok, .statement 0 .ok,
    .statement 0 .ok]

theorem rotation_append_only :
    ∃ s, run (KtState.step firstBytes ⟨id, fun _ h => h.1, none⟩) (.init []) rotationSchedule =
        some s ∧ s.db.rows.map Row.leafKind = [.identity, .identity, .hybrid] ∧
      s.served.length = 1 ∧ Contiguous s.db.rows ∧
      (∀ bs s', run (KtState.step firstBytes ⟨id, fun _ h => h.1, none⟩) s bs = some s' →
        allLeaves s.db.rows <+: allLeaves s'.db.rows) ∧ ∀ served ∈ s.served, ∃ proofs, served.answer = .ok proofs ∧
        Matches firstBytes ⟨id, fun _ h => h.1, none⟩ served proofs :=
  reaches_with₂ (by decide +kernel) fun _ hrun _ _ => kt_log_append_only contiguous_nil hrun

/-! ### The heads -/

def AnsweredFrom (s : KtState) : Prop :=
  ∀ served ∈ s.served, Contiguous served.snapshot ∧ served.snapshot <+: s.db.rows

theorem snapshot_of_step {a : KtAction} (hst : s.step sha256 keys a = some s') :
    ∀ served ∈ s'.served, served ∈ s.served ∨ served.snapshot = s'.db.rows := by
  cases a with
  | ensure deviceId kind lhash | prove req =>
    cases hst
    exact fun _ => .inl
  | statement i o =>
    simp only [KtState.step] at hst
    split at hst
    · cases hst
    · split_ifs at hst <;> cases hst
      · intro served hse
        rcases mem_concat hse with hse | rfl
        · exact .inl hse
        · exact .inr rfl
      · exact fun _ => .inl
    · split at hst <;> cases hst <;> exact fun _ => .inl

theorem AnsweredFrom.step {a : KtAction} (h : AnsweredFrom s) (hinv : KtInvariant sha256 keys s)
    (hst : s.step sha256 keys a = some s') : AnsweredFrom s' := by
  obtain ⟨hinv', hgrows⟩ := hinv.step hst
  intro served hse
  rcases snapshot_of_step hst served hse with hse | heq
  · exact (h served hse).imp_right (·.trans hgrows)
  · rw [heq]
    exact ⟨hinv'.contiguous, prefix_rfl⟩

/-- All heads are heads of one log: what a request was told about the tree, at whatever time, is the
size and the root of the first leaves of the log. Two heads of one size have the same root. -/
theorem served_heads_of_one_log {as : List KtAction} (hrows : Contiguous rows)
    (hrun : run (KtState.step sha256 keys) (.init rows) as = some s) :
    ∀ served ∈ s.served, ∃ proofs, served.answer = .ok proofs ∧
      proofs.identity.treeSize ≤ (allLeaves s.db.rows).length ∧
      proofs.identity.rootHash = treeRoot sha256 ((allLeaves s.db.rows).take proofs.identity.treeSize) ∧
      ∀ head ∈ proofs.head, head.treeSize = proofs.identity.treeSize ∧
        head.rootHash = proofs.identity.rootHash := by
  obtain ⟨hinv, hlog⟩ : KtInvariant sha256 keys s ∧ AnsweredFrom s :=
    run_invariant (P := fun t => KtInvariant sha256 keys t ∧ AnsweredFrom t) (G := fun _ _ => True)
      (fun ht _ hst => ⟨(ht.1.step hst).1, ht.2.step ht.1 hst⟩) ⟨ktInvariant_init hrows, by rintro _ ⟨⟩⟩
      (along_of_forall fun _ _ => trivial) hrun
  intro served hse
  obtain ⟨proofs, han, hma⟩ := hinv.served served hse
  obtain ⟨hco, hpre⟩ := hlog served hse
  obtain ⟨hsize, hroot, -, -⟩ := hma.identity
  refine ⟨proofs, han, ?_, ?_, fun head hhe => ⟨(hma.head head hhe).1, (hma.head head hhe).2.1⟩⟩
  · rw [hsize, hinv.contiguous.allLeaves_eq, length_map]
    exact hpre.length_le
  · rw [hroot, hsize, hco.allLeaves_eq, hinv.contiguous.allLeaves_eq, ← map_take,
      ← prefix_iff_eq_take.mp hpre]

theorem rotation_heads_of_one_log :
    ∃ s, run (KtState.step firstBytes ⟨id, fun _ h => h.1, none⟩) (.init []) rotationSchedule = some s ∧
      s.served.length = 1 ∧ ∀ served ∈ s.served, ∃ proofs, served.answer = .ok proofs ∧
        proofs.identity.treeSize ≤ (allLeaves s.db.rows).length :=
  reaches_with (by decide +kernel) fun _ hrun _ served hse =>
    (served_heads_of_one_log contiguous_nil hrun served hse).imp fun _ h => ⟨h.1, h.2.1⟩

end

end ConstructServer.KeyService
