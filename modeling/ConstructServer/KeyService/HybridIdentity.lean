import ConstructServer.KeyService.PreKeys

/-!
# Hybrid signatures and the hybrid identity

Every hybrid signature is checked before it is stored, against the hybrid identity or the signed
pre-keys that an earlier statement has read. If these are still the ones that are stored when the
signature is written, and if the identity changes only while the device has no active Kyber one-time
keys, then every stored signature verifies under the stored identity.
-/

namespace ConstructServer.KeyService

open Calls Machine List
open Queue (Bytes)

/-! ### Consistent rows -/

variable {cr : Crypto}

def KyberVerifies (cr : Crypto) (hybridKey : Bytes) (publicKey : Option Bytes)
    (createdAt : Option UInt64) (sig : Bytes) : Prop :=
  ∃ key created, publicKey = some key ∧ createdAt = some created ∧
    cr.hybrid hybridKey (buildKyberPrekeySignMessageV2 created key) sig = .ok ()

structure DeviceRow.Verifies (cr : Crypto) (row : DeviceRow) (hybridKey : Bytes) : Prop where
  signed : ∀ sig ∈ row.signedPrekeyHybridSignature,
    cr.hybrid hybridKey (buildPrekeySignMessage 0x01 row.signedPrekeyPublic) sig = .ok ()
  kyber : ∀ sig ∈ row.kyberSignedPreKeyHybridSignature,
    KyberVerifies cr hybridKey row.kyberSignedPreKey row.kyberSignedPreKeyCreatedAt sig

def KyberOneTimePreKey.Verifies (cr : Crypto) (key : KyberOneTimePreKey) (hybridKey : Bytes) : Prop :=
  ∀ sig ∈ key.hybridSignature, KyberVerifies cr hybridKey (some key.publicKey) key.createdAt sig

structure Consistent (cr : Crypto) (s : KeyState) : Prop where
  row : ∀ device row, s.devices.get? device = some row →
    ∀ hybridKey ∈ row.hybridIdentityKey, row.Verifies cr hybridKey
  oneTime : ∀ device row, s.devices.get? device = some row →
    ∀ hybridKey ∈ row.hybridIdentityKey, ∀ id key,
      activeKey s.kyberOneTimePreKeys ⟨device, id⟩ = some key → key.Verifies cr hybridKey

/-! ### What the calls have checked -/

/-- The signatures that a statement writes verify under the identity that was read, and over the
keys that were read. -/
def Checked (cr : Crypto) : KeyStatement → Prop
  | .rotate _ key hybridSig _ read => ∀ sig ∈ hybridSig, ∃ hybridKey, read = some hybridKey ∧
      cr.hybrid hybridKey (buildPrekeySignMessage 0x01 key.publicKey) sig = .ok ()
  | .storeKyber _ rotation read => ∀ sig ∈ rotation.hybridSig, ∃ hybridKey, read = some hybridKey ∧
      KyberVerifies cr hybridKey (some rotation.key.publicKey) (some rotation.key.createdAt) sig
  | .storeHybrid _ key _ spkSig kyberSig read =>
      (∀ sig ∈ spkSig,
        cr.hybrid key (buildPrekeySignMessage 0x01 read.signedPrekeyPublic) sig = .ok ()) ∧
      ∀ sig ∈ kyberSig,
        KyberVerifies cr key read.kyberSignedPreKey read.kyberSignedPreKeyCreatedAt sig
  | .insertKyber _ key read => ∃ hybridKey, read = some hybridKey ∧ key.Verifies cr hybridKey
  | _ => True

variable {hybridKey : Option Bytes} {verifyingKey : Bytes}

theorem checkSignedPrekey_hybrid {key : SignedPreKey}
    {sig : Bytes} (h : checkSignedPrekey cr verifyingKey hybridKey key (some sig) = .ok ()) :
    ∃ k, hybridKey = some k ∧ cr.hybrid k (buildPrekeySignMessage 0x01 key.publicKey) sig = .ok () := by
  obtain ⟨_, -, h⟩ := bind_eq_ok.mp h
  obtain ⟨_, -, h⟩ := bind_eq_ok.mp h
  cases hybridKey with
  | none => cases h
  | some k => exact ⟨k, rfl, mapError_eq_ok.mp h⟩

theorem checkKyberPrekeyHybridV2_ok {publicKey sig : Bytes}
    {createdAt : UInt64} (h : checkKyberPrekeyHybridV2 cr hybridKey publicKey createdAt sig = .ok ()) :
    ∃ k, hybridKey = some k ∧ KyberVerifies cr k (some publicKey) (some createdAt) sig := by
  cases hybridKey with
  | none => cases h
  | some k =>
    obtain ⟨_, -, h⟩ := bind_eq_ok.mp h
    exact ⟨k, rfl, publicKey, createdAt, rfl, rfl, mapError_eq_ok.mp h⟩

variable {rotation : KyberRotation}

theorem checkKyberSignedPrekey_hybrid {now : Nat}
    (h : checkKyberSignedPrekey cr verifyingKey hybridKey rotation now = .ok ()) :
    ∀ sig ∈ rotation.hybridSig, ∃ k, hybridKey = some k ∧
      KyberVerifies cr k (some rotation.key.publicKey) (some rotation.key.createdAt) sig := by
  intro sig hsi
  obtain ⟨_, -, h⟩ := bind_eq_ok.mp h
  rw [show rotation.hybridSig = some sig from hsi] at h
  exact checkKyberPrekeyHybridV2_ok h

theorem checkKyberKeys_hybrid {now : Nat}
    {keys : List KyberUpload} (h : checkKyberKeys cr verifyingKey hybridKey now keys = .ok ()) :
    ∀ k ∈ keys, ∃ identity, hybridKey = some identity ∧ k.stored.Verifies cr identity := by
  induction keys with
  | nil => exact nofun
  | cons k keys ih =>
    obtain ⟨_, -, h⟩ := bind_eq_ok.mp h
    obtain ⟨_, hch, h⟩ := bind_eq_ok.mp h
    intro k' hk'
    rcases mem_cons.mp hk' with rfl | hk'
    · obtain ⟨identity, hid, hve⟩ := checkKyberPrekeyHybridV2_ok hch
      refine ⟨identity, hid, ?_⟩
      rintro sig ⟨⟩
      exact hve
    · exact ih h k' hk'

theorem persisted_verifies {verify : Bytes → Except String Unit} {sig : Option Bytes} {kept : Bytes}
    (h : kept ∈ persisted verify sig) : verify kept = .ok () := by
  obtain ⟨-, hke⟩ := Option.filter_eq_some_iff.mp h
  have hv := (Bool.and_eq_true_iff.mp hke).2
  cases hr : verify kept with
  | ok => rfl
  | error e =>
    rw [hr] at hv
    cases hv

theorem kyberSigToPersist_verifies {key : Bytes} {row : HybridVerifyRow} {sig : Option Bytes}
    {kept : Bytes} (h : kept ∈ kyberSigToPersist cr key row sig) :
    KyberVerifies cr key row.kyberSignedPreKey row.kyberSignedPreKeyCreatedAt kept := by
  simp only [kyberSigToPersist] at h
  split at h
  · rename_i kyber createdAt hky hcr
    exact ⟨kyber, createdAt, hky, hcr, persisted_verifies h⟩
  · cases h

theorem checked_of_not_writes (q : KeyStatement) (hq : q.writesKeys = false) : Checked cr q := by
  cases q <;> trivial

variable {device : String}

theorem asks_storeSignedPreKeys_checked
    {signed : Option (SignedPreKey × Option Bytes)} {kyber : Option KyberRotation} :
    (storeSignedPreKeys cr device signed kyber).run.Asks (Checked cr) := by
  refine asks_next trivial fun _ => ?_
  match signed, kyber with
  | some (key, hybridSig), kyber =>
    refine asks_next trivial fun keys => ?_
    split
    · trivial
    · refine asks_check_then fun _ hch => asks_next ?_ fun _ => asks_check
      rintro sig ⟨⟩
      exact checkSignedPrekey_hybrid (mapError_eq_ok.mp hch)
  | none, some rotation =>
    refine asks_next trivial fun keys => ?_
    split
    · trivial
    · refine asks_check_then fun _ hch => asks_next ?_ fun _ => asks_ensure
      exact checkKyberSignedPrekey_hybrid (mapError_eq_ok.mp hch)
  | none, none => exact asks_demand trivial

theorem asks_storeHybridIdentity_checked {upload : HybridIdentityUpload} :
    (storeHybridIdentity cr device upload).run.Asks (Checked cr) := by
  refine asks_then asks_check fun _ => asks_then asks_check fun _ => ?_
  refine asks_next trivial fun row => ?_
  split
  · trivial
  · refine asks_then asks_check fun _ => asks_demand ⟨fun sig hsi => ?_, fun sig hsi => ?_⟩
    · exact persisted_verifies hsi
    · exact kyberSigToPersist_verifies hsi

theorem asks_insertKyberKeys_checked {read : Option Bytes} {kyber : List KyberUpload}
    (hky : ∀ k ∈ kyber, ∃ identity, read = some identity ∧ k.stored.Verifies cr identity) :
    (insertKyberKeys device read kyber).run.Asks (Checked cr) := by
  induction kyber with
  | nil => trivial
  | cons k kyber ih =>
    refine asks_next (hky k mem_cons_self) fun _ => ih fun k' hk' => ?_
    exact hky k' (mem_cons_of_mem _ hk')

theorem asks_storePrekeys_checked {preKeys : List (UInt32 × Bytes)}
    {replaceExisting : Bool} {kyber : List KyberUpload} :
    (storePrekeys cr device preKeys replaceExisting kyber).run.Asks (Checked cr) := by
  refine asks_next trivial fun _ => asks_guard fun _ => ?_
  have he : (expireExisting device replaceExisting).run.Asks (Checked cr) := by
    unfold expireExisting
    split
    · exact asks_next trivial fun _ => asks_demand trivial
    · trivial
  have hcl : (insertClassicKeys device preKeys).run.Asks (Checked cr) := by
    induction preKeys with
    | nil => trivial
    | cons p keys ih => exact asks_next trivial fun _ => ih
  have hr : ∀ read, (∀ k ∈ kyber, ∃ identity, read = some identity ∧
      k.stored.Verifies cr identity) → (do
        expireExisting device replaceExisting
        insertClassicKeys device preKeys
        insertKyberKeys device read kyber
        let classicCount ← statement (.countClassic device) databaseError
        let kyberCount ← statement (.countKyber device) databaseError
        pure (classicCount, kyberCount) : KeyCore (Nat × Nat)).run.Asks (Checked cr) := by
    intro read hre
    refine asks_then he fun _ => asks_then hcl fun _ => ?_
    refine asks_then (asks_insertKyberKeys_checked hre) fun _ => ?_
    exact asks_next trivial fun _ => asks_next trivial fun _ => trivial
  unfold checkedKyberKeys
  split
  · rename_i hem
    refine hr none ?_
    rw [isEmpty_iff.mp hem]
    exact nofun
  · rw [bind_assoc]
    refine asks_next trivial fun keys => ?_
    split
    · trivial
    · rw [bind_assoc]
      exact asks_check_then fun _ hch => hr _ (checkKyberKeys_hybrid hch)

/-- **Every hybrid signature that a call writes has been checked**, under the identity and over the
keys that it has read. -/
theorem asks_checked {c : KeyCall} {s : KeyState} : (keyBody cr c s).Asks (Checked cr) := by
  refine asks_keyBody checked_of_not_writes (fun authedDeviceId req _ => ?_) fun authedDeviceId req _ => ?_
  · refine asks_then (asks_admitUpload checked_of_not_writes) fun _ => ?_
    refine asks_then (asks_mapErr asks_storeSignedPreKeys_checked) fun _ => asks_then ?_ fun _ => ?_
    · unfold uploadHybrid
      split
      · trivial
      · exact asks_mapErr asks_storeHybridIdentity_checked
    · refine asks_then (asks_mapErr asks_storePrekeys_checked) fun _ => ?_
      exact asks_then (asks_mapErr (asks_setDeviceSupportsPqRatchet checked_of_not_writes)) fun _ => trivial
  · refine asks_guard fun _ => asks_guard fun _ => ?_
    split
    · trivial
    · exact asks_guard fun _ => asks_mapErr asks_storeSignedPreKeys_checked

/-! ### What one statement does -/

/-- A hybrid signature is written while what it was checked against is still stored, and the
identity changes only while the device has no active Kyber one-time keys. -/
def ReadsCurrent (s : KeyState) : KeyStatement → Prop
  | .rotate device _ hybridSig _ read =>
    hybridSig = none ∨ ∀ row ∈ s.devices.get? device, row.hybridIdentityKey = read
  | .storeKyber device rotation read =>
    rotation.hybridSig = none ∨ ∀ row ∈ s.devices.get? device, row.hybridIdentityKey = read
  | .storeHybrid device key _ _ _ read => ∀ row ∈ s.devices.get? device, row.hybridVerify = read ∧
      (row.hybridIdentityKey = some key ∨ activeCount s.kyberOneTimePreKeys device = 0)
  | .insertKyber ref _ read => s.kyberOneTimePreKeys.get? ref ≠ none ∨
      ∀ row ∈ s.devices.get? ref.device, row.hybridIdentityKey = read
  | _ => True

variable {s s' : KeyState}

theorem activeKey_eq_none_of_activeCount {ρ : Type} {t : Table KeyRef (OneTimeRow ρ)}
    (h : activeCount t device = 0) (id : UInt32) : activeKey t ⟨device, id⟩ = none := by
  refine Option.eq_none_iff_forall_ne_some.mpr fun key hk => ?_
  have hm := Table.get?_eq_some_iff.mp (activeKey_eq_some_iff.mp hk)
  exact countP_eq_zero.mp h _ hm (decide_eq_true ⟨rfl, rfl⟩)

theorem Consistent.updateDevice (hs : Consistent cr s) {f : DeviceRow → DeviceRow}
    (hf : ∀ row, s.devices.get? device = some row → ∀ hybridKey ∈ (f row).hybridIdentityKey,
      (f row).Verifies cr hybridKey ∧ ∀ id key,
        activeKey s.kyberOneTimePreKeys ⟨device, id⟩ = some key → key.Verifies cr hybridKey) :
    Consistent cr (s.updateDevice device f) := by
  have hr : ∀ device' row', (s.updateDevice device f).devices.get? device' = some row' →
      ∀ hybridKey ∈ row'.hybridIdentityKey, row'.Verifies cr hybridKey ∧ ∀ id key,
        activeKey s.kyberOneTimePreKeys ⟨device', id⟩ = some key → key.Verifies cr hybridKey := by
    intro device' row' hg hybridKey hke
    rw [KeyState.updateDevice, Table.get?_modify] at hg
    obtain ⟨row, ho, rfl⟩ := Option.map_eq_some_iff.mp hg
    by_cases hde : device' = device
    · subst hde
      rw [if_pos rfl] at hke ⊢
      exact hf row ho hybridKey hke
    · rw [if_neg hde] at hke ⊢
      exact ⟨hs.row _ row ho hybridKey hke, hs.oneTime _ row ho hybridKey hke⟩
  exact ⟨fun d row hg k hk => (hr d row hg k hk).1, fun d row hg k hk => (hr d row hg k hk).2⟩

theorem Consistent.updateKeys (hs : Consistent cr s) {f : DeviceRow → DeviceRow}
    (hke : ∀ row, (f row).hybridIdentityKey = row.hybridIdentityKey)
    (hf : ∀ row hybridKey, s.devices.get? device = some row → row.hybridIdentityKey = some hybridKey →
      row.Verifies cr hybridKey → (f row).Verifies cr hybridKey) : Consistent cr (s.updateDevice device f) := by
  refine hs.updateDevice fun row hg hybridKey hk => ?_
  rw [hke row] at hk
  exact ⟨hf row hybridKey hg hk (hs.row _ row hg hybridKey hk), hs.oneTime _ row hg hybridKey hk⟩

theorem Consistent.shrink (hs : Consistent cr s) (hde : s'.devices = s.devices)
    (ha : ∀ ref key, activeKey s'.kyberOneTimePreKeys ref = some key →
      activeKey s.kyberOneTimePreKeys ref = some key) : Consistent cr s' := by
  refine ⟨fun d row hg => ?_, fun d row hg k hk id key hke => ?_⟩
  · rw [hde] at hg
    exact hs.row d row hg
  · rw [hde] at hg
    exact hs.oneTime d row hg k hk id key (ha _ _ hke)

theorem DeviceRow.Verifies.storeKyber {row : DeviceRow} {hybridKey : Bytes}
    (h : row.Verifies cr hybridKey) (hro : ∀ sig ∈ rotation.hybridSig,
      KyberVerifies cr hybridKey (some rotation.key.publicKey) (some rotation.key.createdAt) sig) :
    (row.storeKyber rotation).Verifies cr hybridKey :=
  ⟨h.signed, hro⟩

theorem Consistent.storeKyber (hs : Consistent cr s)
    (hro : ∀ row hybridKey, s.devices.get? device = some row → row.isActive = true →
      row.hybridIdentityKey = some hybridKey → ∀ sig ∈ rotation.hybridSig,
      KyberVerifies cr hybridKey (some rotation.key.publicKey) (some rotation.key.createdAt) sig) :
    Consistent cr (s.updateActive device (·.storeKyber rotation)) := by
  refine hs.updateKeys (fun row => ?_) fun row hybridKey hg hk hr => ?_
  · split <;> rfl
  · split
    · rename_i ha
      exact hr.storeKyber (hro row hybridKey hg ha hk)
    · exact hr

theorem Consistent.rotate (hs : Consistent cr s) {key : SignedPreKey}
    {hybridSig read : Option Bytes} {kyber : Option KyberRotation}
    (hq : Checked cr (.rotate device key hybridSig kyber read))
    (hca : ReadsCurrent s (.rotate device key hybridSig kyber read))
    (h : s.rotate cr device key hybridSig kyber = .ok s') : Consistent cr s' := by
  have hsig : Consistent cr (s.updateDevice device (·.rotate key hybridSig)) := by
    refine hs.updateKeys (fun row => rfl) fun row hybridKey hg hke hr => ⟨?_, hr.kyber⟩
    intro sig hsi
    obtain ⟨k, hre, hve⟩ := hq sig hsi
    have hcu := hca.resolve_left (fun hno => by cases hno; cases hsi) row hg
    rw [hke, hre, Option.some.injEq] at hcu
    exact hcu ▸ hve
  simp only [KeyState.rotate] at h
  split at h
  · cases h
  · split at h
    · cases h
      exact hsig
    · split at h
      · cases h
      · rename_i rotation _ row ha
        split at h
        · cases h
        · rename_i hch
          cases h
          refine hsig.storeKyber fun row' hybridKey hg _ hke sig hsi => ?_
          obtain ⟨hg', -⟩ := Option.filter_eq_some_iff.mp ha
          have hr := Option.some.inj (hg.symm.trans hg')
          obtain ⟨k, hk, hve⟩ := checkKyberSignedPrekey_hybrid hch sig hsi
          rw [← hr, hke, Option.some.injEq] at hk
          exact hk ▸ hve

theorem Consistent.storeHybrid (hs : Consistent cr s) {key signature : Bytes}
    {spkSig kyberSig : Option Bytes} {read : HybridVerifyRow}
    (hq : Checked cr (.storeHybrid device key signature spkSig kyberSig read))
    (hca : ReadsCurrent s (.storeHybrid device key signature spkSig kyberSig read)) :
    Consistent cr (s.updateActive device (·.storeHybrid key signature spkSig kyberSig)) := by
  refine hs.updateDevice fun row hg hybridKey hke => ?_
  obtain ⟨hre, hsa⟩ := hca row hg
  split at hke
  · cases hke
    rename_i ha
    rw [if_pos ha]
    refine ⟨⟨fun sig hsi => ?_, fun sig hsi => ?_⟩, fun id k hk => ?_⟩
    · have hsig := hq.1 sig hsi
      rw [← hre] at hsig
      exact hsig
    · have hky := hq.2 sig hsi
      rw [← hre] at hky
      exact hky
    · rcases hsa with hsa | hno
      · exact hs.oneTime device row hg key hsa id k hk
      · rw [activeKey_eq_none_of_activeCount hno] at hk
        cases hk
  · rename_i ha
    rw [if_neg ha]
    exact ⟨hs.row device row hg hybridKey hke, hs.oneTime device row hg hybridKey hke⟩

theorem Consistent.insertKyber (hs : Consistent cr s) {ref : KeyRef} {key : KyberOneTimePreKey}
    {read : Option Bytes} (hq : Checked cr (.insertKyber ref key read))
    (hca : ReadsCurrent s (.insertKyber ref key read)) : Consistent cr
      { s with kyberOneTimePreKeys := s.kyberOneTimePreKeys.insertNew ref ⟨key, none⟩ } := by
  refine ⟨hs.row, fun device row hg hybridKey hke id k hk => ?_⟩
  rw [activeKey_insertNew] at hk
  split at hk
  · rename_i hn
    obtain ⟨rfl, hf⟩ := hn
    cases hk
    obtain ⟨identity, hre, hve⟩ := hq
    have hcu := hca.resolve_left (not_not_intro hf) row hg
    rw [show row.hybridIdentityKey = some hybridKey from hke, hre, Option.some.injEq] at hcu
    exact hcu ▸ hve
  · exact hs.oneTime device row hg hybridKey hke id k hk

theorem Consistent.effect (hs : Consistent cr s) {n : Nat} {q : KeyStatement}
    {choice : Option UInt32} {x : q.Reply} (hq : Checked cr q) (hca : ReadsCurrent s q)
    (h : s.effect cr n q choice = some (x, s')) : Consistent cr s' := by
  cases q with
  | rotate device key hybridSig kyber read =>
    cases hro : s.rotate cr device key hybridSig kyber with
    | ok t =>
      rw [effect_rotate_of_ok hro] at h
      cases h
      exact hs.rotate hq hca hro
    | error e =>
      rw [effect_rotate_of_error hro] at h
      cases h
      exact hs
  | storeKyber device rotation read =>
    cases h
    refine hs.storeKyber fun row hybridKey hg _ hk sig hsi => ?_
    obtain ⟨k, hre, hve⟩ := hq sig hsi
    have hcu := hca.resolve_left (fun hno => by rw [hno] at hsi; cases hsi) row hg
    rw [hk, hre, Option.some.injEq] at hcu
    exact hcu ▸ hve
  | storeHybrid device key signature spkSig kyberSig read =>
    cases h
    exact hs.storeHybrid hq hca
  | insertKyber ref key read =>
    cases h
    exact hs.insertKyber hq hca
  | setSupportsPqRatchet device supports =>
    cases h
    refine hs.updateKeys (fun row => ?_) fun row hybridKey _ _ hr => ?_
    · split <;> rfl
    · split
      · exact ⟨hr.signed, hr.kyber⟩
      · exact hr
  | expireKyber device =>
    cases h
    refine hs.shrink rfl fun ref key hk => ?_
    rw [activeKey_expireAll] at hk
    split at hk
    · cases hk
    · exact hk
  | consumeKyber device =>
    cases choice with
    | none =>
      cases h
      exact hs
    | some id =>
      obtain ⟨taken, -, heq⟩ := Option.map_eq_some_iff.mp h
      cases heq
      refine hs.shrink rfl fun ref key hk => ?_
      rw [activeKey_expireOne] at hk
      split at hk
      · cases hk
      · exact hk
  | deleteExpiredKyber =>
    cases h
    exact hs.shrink rfl fun ref key hk => activeKey_deleteExpired ▸ hk
  | consumeClassic device =>
    cases choice with
    | none =>
      cases h
      exact hs
    | some keyId =>
      obtain ⟨taken, -, heq⟩ := Option.map_eq_some_iff.mp h
      cases heq
      exact hs.shrink rfl fun _ _ => id
  | selectDevice | selectActiveDevices | selectDevices =>
    obtain ⟨u, -, heq⟩ := Option.map_eq_some_iff.mp h
    cases heq
    exact hs
  | _ =>
    cases h
    exact hs.shrink rfl fun _ _ => id

/-! ### Any number of calls -/

def hybridConsistency (cr : Crypto) :
    Discipline KeyStatement (Input (Option UInt32)) KeyState KeyCall where
  inv := Consistent cr
  fresh _ _ := True
  rely _ _ _ _ := True
  begins _ _ := True
  compat _ _ := True
  care _ q _ s := ReadsCurrent s q
  refl _ _ _ := trivial
  trans _ _ := trivial

theorem safe_keyBody_consistent {n : Nat} {c : KeyCall} :
    (hybridConsistency cr).Safe (keyExec cr) n c (keyBody cr c s)
    ((hybridConsistency cr).Ends keyFinish n c) s := by
  have hke : ∀ {t t'}, Consistent cr t' → (hybridConsistency cr).Keeps n c t t' :=
    fun hinv => ⟨hinv, fun _ _ _ => trivial, fun _ _ _ _ => trivial⟩
  refine Discipline.safe_of_keeps (P := Checked cr) (fun _ => True) (fun _ _ _ _ => trivial)
    (fun q input t r t' hq hinv _ hca he => ⟨hke ?_, trivial⟩) (fun a t _ hinv => hke ?_)
    asks_checked trivial
  · cases fallible_case he with
    | failed => exact hinv
    | effect hef _ => exact hinv.effect hq hca hef
  · -- The end of a call writes down what happened, and touches neither table.
    unfold keyFinish
    split
    · exact hinv.shrink rfl fun _ _ => id
    · split
      · exact hinv.shrink rfl fun _ _ => id
      · exact hinv
    · exact hinv

/-- Every stored hybrid signature verifies under the stored hybrid identity, over the key stored
beside it, as long as the signatures are written while what they were checked against is still
stored and the identity changes only while there are no active Kyber one-time keys. -/
theorem hybrid_signatures_consistent (cr : Crypto) {s : KeyState} (hs : Consistent cr s)
    {as : List KeyAction} {pool : KeyPool}
    (hcareful : Along (keyStep cr) (hybridConsistency cr).Careful (.init s) as)
    (hrun : run (keyStep cr) (.init s) as = some pool) : Consistent cr pool.store :=
  key_run_invariant (D := hybridConsistency cr) (fun _ _ _ _ _ _ => safe_keyBody_consistent)
    (fun _ _ hinv => ⟨hinv.shrink rfl fun _ _ => id, fun _ _ => trivial, fun _ _ => trivial⟩)
    hs (fun _ => trivial) hcareful hrun

/-! ### A device that changes its identity -/

instance decidableReadsCurrent (s : KeyState) : (q : KeyStatement) → Decidable (ReadsCurrent s q) := fun q => by
  cases q <;> dsimp only [ReadsCurrent] <;> infer_instance

attribute [reducible] hybridConsistency

def firstByteCrypto : Crypto where
  verifyingKey _ := .ok ()
  ed25519 _ _ _ := true
  hybrid key _ sig := if key.head? = sig.head? then .ok () else .error "signature mismatch"

def demoIdentity (b : UInt8) : Bytes := replicate hybridSigPublicKeySize b

def demoKyberKey (b : UInt8) : KyberUpload where
  keyId := 1
  publicKey := replicate kyberPublicKeySize 0
  signature := replicate 64 0
  createdAt := 1
  hybridSignature := replicate hybridSignatureSize b

def identityUpload (b : UInt8) (keys : List KyberUpload) : UploadRequest :=
  { demoUpload [] false with
    hybridIdentityKey := some (demoIdentity b)
    hybridIdentitySignature := some (replicate 64 0)
    kyberPreKeys := keys }

def firstIdentity : List KeyAction :=
  keyCall (.upload "d" (identityUpload 1 [demoKyberKey 1])) (replicate 13 none)

def secondIdentity : List KeyAction :=
  keyCall (.upload "d" (identityUpload 2 [])) (replicate 11 none)

def KeyState.identityAndKey (s : KeyState) : Option Bytes × Option KyberOneTimePreKey :=
  ((s.devices.get? "d").bind DeviceRow.hybridIdentityKey, activeKey s.kyberOneTimePreKeys ⟨"d", 1⟩)

theorem consistent_demoKeys : Consistent cr demoKeys := by
  have hno : ∀ d row, demoKeys.devices.get? d = some row → row.hybridIdentityKey = none := by
    intro d row hg
    have hm : (d, row) ∈ [("d", demoRow)] := Table.get?_eq_some_iff.mp hg
    cases mem_singleton.mp hm
    rfl
  refine ⟨fun d row hg k hk => ?_, fun d row hg k hk => ?_⟩
  all_goals
    rw [hno d row hg] at hk
    cases hk

/-- The identity and the one-time key of one upload fit together. -/
theorem hybrid_signatures_consistent_demo :
    ∃ pool, run (keyStep firstByteCrypto) (.init demoKeys) firstIdentity = some pool ∧
      pool.store.identityAndKey = (some (demoIdentity 1), some (demoKyberKey 1).stored) ∧
      Consistent firstByteCrypto pool.store :=
  reaches_with (by decide +kernel) fun _ hrun _ =>
    hybrid_signatures_consistent firstByteCrypto consistent_demoKeys (by decide +kernel) hrun

/-- A second upload stores another identity. The one-time key stays active, with the signature of
the first one. -/
theorem hybrid_identity_strands_keys :
    ∃ pool, run (keyStep firstByteCrypto) (.init demoKeys) (firstIdentity ++ secondIdentity) = some pool ∧
      pool.store.identityAndKey = (some (demoIdentity 2), some (demoKyberKey 1).stored) ∧
      ¬Consistent firstByteCrypto pool.store := by
  refine reaches_with (by decide +kernel) fun pool _ hout hconsistent => ?_
  obtain ⟨row, hget, hkey⟩ := Option.bind_eq_some_iff.mp (congrArg Prod.fst hout)
  obtain ⟨k, created, hk, hcreated, hverifies⟩ :=
    hconsistent.oneTime "d" row hget _ hkey 1 _ (congrArg Prod.snd hout) _ rfl
  -- The signature begins with another byte than the identity.
  have hbytes : (demoIdentity 2).head? ≠ (demoKyberKey 1).hybridSignature.head? := by decide
  simp only [firstByteCrypto] at hverifies
  rw [if_neg hbytes] at hverifies
  cases hverifies

end ConstructServer.KeyService
