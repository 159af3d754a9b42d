import ConstructServer.KeyService.PreKeys

/-!
# Uploads that are refused

An upload is carried out in parts that are committed one by one: the signed pre-keys, the hybrid
identity, the one-time keys key by key, and a flag. A part that is refused, or a statement that
fails, leaves the parts before it in place. So an upload that answers with an error has changed
nothing that is served exactly if no part that comes to be carried out changes anything.
-/

namespace ConstructServer.KeyService

open Calls List
open Queue (Bytes)

/-! ### What is served -/

def DeviceRow.servedKeys (row : DeviceRow) : DeviceRow :=
  { row with spkRotationEpoch := 0, kyberSpkRotationEpoch := 0, supportsPqRatchet := false }

/-- The signed pre-keys, the hybrid identity with its signatures and the active one-time keys of the
device are the same. -/
structure SameServed (device : String) (s s' : KeyState) : Prop where
  row : (s'.devices.get? device).map DeviceRow.servedKeys =
    (s.devices.get? device).map DeviceRow.servedKeys
  classic : ∀ id, activeKey s'.oneTimePrekeys ⟨device, id⟩ = activeKey s.oneTimePrekeys ⟨device, id⟩
  kyber : ∀ id,
    activeKey s'.kyberOneTimePreKeys ⟨device, id⟩ = activeKey s.kyberOneTimePreKeys ⟨device, id⟩

/-- Everything that an upload of the device reads is the same, but for counters and the flag. -/
structure SameInputs (device : String) (s s' : KeyState) : Prop where
  now : s'.now = s.now
  row : (s'.devices.get? device).map DeviceRow.servedKeys =
    (s.devices.get? device).map DeviceRow.servedKeys
  classic : ∀ id, s'.oneTimePrekeys.get? ⟨device, id⟩ = s.oneTimePrekeys.get? ⟨device, id⟩
  kyber : ∀ id, s'.kyberOneTimePreKeys.get? ⟨device, id⟩ = s.kyberOneTimePreKeys.get? ⟨device, id⟩

/-! ### What an upload does to the device before the call -/

def UploadRequest.storeSigned (req : UploadRequest) (row : DeviceRow) : DeviceRow :=
  let row := req.signedPreKey.elim row fun key => row.rotate key none
  req.kyberSignedPreKey.elim row fun key => row.storeKyber ⟨key, none⟩

def HybridIdentityUpload.store (cr : Crypto) (upload : HybridIdentityUpload) (read : HybridVerifyRow)
    (row : DeviceRow) : DeviceRow :=
  row.storeHybrid upload.hybridIdentityKey upload.hybridIdentitySignature
    (spkSigToPersist cr upload.hybridIdentityKey read upload.signedPrekeyHybridSignature)
    (kyberSigToPersist cr upload.hybridIdentityKey read upload.kyberPreKeyHybridSignature)

def KeyState.nextReplace (s : KeyState) (device : String) : Nat :=
  ((s.replaces.incr (s.now * 1000) ("prekey_replace:" ++ device)).get (s.now * 1000)
    ("prekey_replace:" ++ device)).getD 0

section

variable (cr : Crypto) (s : KeyState) (req : UploadRequest)

/-- The request passes what is checked before anything is written. -/
structure Admitted (authedDeviceId : String) : Prop where
  device : req.deviceId ≠ ""
  authed : req.deviceId = authedDeviceId
  keys : req.preKeys ≠ [] ∨ req.kyberPreKeys ≠ [] ∨ req.hybridIdentity.isSome = true
  allowed : uploadAllowed (activeCount s.oneTimePrekeys req.deviceId)
    (activeCount s.kyberOneTimePreKeys req.deviceId) req.preKeys.length req.kyberPreKeys.length
    req.replaceExisting = .ok ()
  replaces : req.replaceExisting = true → s.nextReplace req.deviceId ≤ maxReplacesPerHour

def SignedAccepted : Prop :=
  req.signedPreKey = none ∧ req.kyberSignedPreKey = none ∨
    ∃ row, s.activeDevice req.deviceId = some row ∧
      (∀ key ∈ req.signedPreKey,
        checkSignedPrekey cr row.verifyingKey row.hybridIdentityKey key none = .ok ()) ∧
      ∀ key ∈ req.kyberSignedPreKey,
        checkKyberSignedPrekey cr row.verifyingKey row.hybridIdentityKey ⟨key, none⟩ s.now = .ok ()

def SignedUnchanged : Prop :=
  ∀ row, s.activeDevice req.deviceId = some row → (req.storeSigned row).servedKeys = row.servedKeys

def HybridAccepted : Prop :=
  ∀ upload ∈ req.hybridIdentity,
    validateSize "hybrid_identity_key" hybridSigPublicKeySize upload.hybridIdentityKey = .ok () ∧
    validateEd25519Signature upload.hybridIdentitySignature = .ok () ∧
    ∃ row, s.activeDevice req.deviceId = some row ∧
      verifyHybridIdentityCrosssign cr row.verifyingKey upload.hybridIdentityKey
        upload.hybridIdentitySignature = .ok ()

def HybridUnchanged : Prop :=
  ∀ upload ∈ req.hybridIdentity, ∀ row, s.activeDevice req.deviceId = some row →
    (upload.store cr row.hybridVerify row).servedKeys = row.servedKeys

def KeysAccepted : Prop :=
  ∃ row, s.activeDevice req.deviceId = some row ∧
    checkKyberKeys cr row.verifyingKey row.hybridIdentityKey s.now req.kyberPreKeys = .ok ()

/-- There is nothing to expire, and every key id of the request is taken. -/
structure KeysUnchanged : Prop where
  expired : req.replaceExisting = true → ∀ id,
    activeKey s.oneTimePrekeys ⟨req.deviceId, id⟩ = none ∧
      activeKey s.kyberOneTimePreKeys ⟨req.deviceId, id⟩ = none
  classic : ∀ k ∈ req.preKeys, (s.oneTimePrekeys.get? ⟨req.deviceId, k.1⟩).isSome = true
  kyber : ∀ k ∈ req.kyberPreKeys,
    (s.kyberOneTimePreKeys.get? ⟨req.deviceId, k.keyId⟩).isSome = true

/-- No part that is carried out changes anything that is served. -/
def Harmless (authedDeviceId : String) : Prop :=
  ¬Admitted s req authedDeviceId ∨ ¬SignedAccepted cr s req ∨
    SignedUnchanged s req ∧ (¬HybridAccepted cr s req ∨
      HybridUnchanged cr s req ∧ (¬KeysAccepted cr s req ∨ KeysUnchanged s req))

end

variable {cr : Crypto} {n : Nat} {q : KeyStatement} {s t t' : KeyState} {req : UploadRequest}
  {device : String}

theorem SameInputs.refl : SameInputs device s s := ⟨rfl, rfl, fun _ => rfl, fun _ => rfl⟩

theorem SameInputs.served (h : SameInputs device s t) : SameServed device s t :=
  ⟨h.row, fun id => by simp only [activeKey, h.classic id],
    fun id => by simp only [activeKey, h.kyber id]⟩

variable {row' : DeviceRow}

theorem SameInputs.activeDevice (h : SameInputs device s t) (hr' : t.activeDevice device = some row') :
    ∃ row, s.activeDevice device = some row ∧ row'.servedKeys = row.servedKeys := by
  obtain ⟨hg, ha⟩ := Option.filter_eq_some_iff.mp hr'
  have hr := h.row
  rw [hg, Option.map_some] at hr
  obtain ⟨row, hs, hke⟩ := Option.map_eq_some_iff.mp hr.symm
  refine ⟨row, Option.filter_eq_some_iff.mpr ⟨hs, ?_⟩, hke.symm⟩
  exact (congrArg DeviceRow.isActive hke).trans ha

theorem SameInputs.symm (h : SameInputs device s t) : SameInputs device t s :=
  ⟨h.now.symm, h.row.symm, fun id => (h.classic id).symm, fun id => (h.kyber id).symm⟩

/-- The device gets a new row, and nothing else that an upload of it reads changes. -/
structure Updates (device : String) (row : DeviceRow) (t t' : KeyState) : Prop where
  now : t'.now = t.now
  row : t'.devices.get? device = some row
  classic : t'.oneTimePrekeys = t.oneTimePrekeys
  kyber : t'.kyberOneTimePreKeys = t.kyberOneTimePreKeys

variable {row : DeviceRow}

theorem updates_updateDevice {f : DeviceRow → DeviceRow} (hr : t.activeDevice device = some row) :
    Updates device (f row) t (t.updateDevice device f) := by
  refine ⟨rfl, ?_, rfl, rfl⟩
  simp [KeyState.updateDevice, (Option.filter_eq_some_iff.mp hr).1]

theorem updates_updateActive {f : DeviceRow → DeviceRow} (hr : t.activeDevice device = some row) :
    Updates device (f row) t (t.updateActive device f) := by
  have h := updates_updateDevice (f := fun row => if row.isActive then f row else row) hr
  rwa [if_pos (Option.filter_eq_some_iff.mp hr).2] at h

theorem Updates.sameInputs (hr : t.activeDevice device = some row)
    (hu : Updates device row' t t') (hke : row'.servedKeys = row.servedKeys) : SameInputs device t t' := by
  refine ⟨hu.now, ?_, fun id => by rw [hu.classic], fun id => by rw [hu.kyber]⟩
  rw [hu.row, (Option.filter_eq_some_iff.mp hr).1]
  exact congrArg some hke

theorem Updates.not_sameServed (hr : t.activeDevice device = some row)
    (hu : Updates device row' t t') (hke : row'.servedKeys ≠ row.servedKeys) : ¬SameServed device t t' := by
  intro h
  have heq := h.row
  rw [hu.row, (Option.filter_eq_some_iff.mp hr).1] at heq
  exact hke (Option.some.inj heq)

/-! ### Statements of a call that runs alone -/

abbrev keyAlone : Discipline KeyStatement (Input (Option UInt32)) KeyState Unit :=
  Discipline.alone KeyStatement (Input (Option UInt32)) KeyState Unit

/-! ### Admission -/

theorem safe_reads {E : Type} {e : E} {x : q.Reply} (hs : SameInputs device s t)
    (he : ∀ choice, t.effect cr n q choice = some (x, t)) : keyAlone.Safe (keyExec cr) n ()
    (statement q e).run
      (endsIn (SameInputs device s) fun y t' => t' = t ∧ y = x) t := by
  refine safe_alone hs fun {choice y t'} h => ?_
  cases (he choice).symm.trans h
  exact ⟨hs, rfl, rfl⟩

theorem SameInputs.countReplace {choice : Option UInt32} {x : Nat} (hs : SameInputs device s t)
    (h : t.effect cr n (.countReplace req.deviceId) choice = some (x, t')) :
    SameInputs device s t' ∧ x = t.nextReplace req.deviceId := by
  cases h
  exact ⟨⟨hs.now, hs.row, hs.classic, hs.kyber⟩, rfl⟩

variable {authedDeviceId : String}

theorem safe_limitReplaces (hs : SameInputs req.deviceId s s)
    (h : (req.replaceExisting = true → s.nextReplace req.deviceId ≤ maxReplacesPerHour) →
      Admitted s req authedDeviceId) :
    keyAlone.Safe (keyExec cr) n () (limitReplaces req.deviceId req.replaceExisting).run
      (endsIn (SameInputs req.deviceId s) fun _ t =>
        SameInputs req.deviceId s t ∧ Admitted s req authedDeviceId) s := by
  unfold limitReplaces
  split
  · refine safe_then (fun count t => SameInputs req.deviceId s t ∧ count = s.nextReplace req.deviceId)
      (safe_alone hs fun h => ?_) ?_
    · obtain ⟨ht', hco⟩ := hs.countReplace h
      exact ⟨ht', ht', hco⟩
    · rintro _ t ⟨ht, rfl⟩
      exact safe_ensure (fun hle => ⟨ht, h fun _ => hle⟩) fun _ => ht
  · rename_i hre
    exact ⟨hs, h fun htr => absurd htr hre⟩

theorem safe_admitUpload : keyAlone.Safe (keyExec cr) n () (admitUpload authedDeviceId req).run
      (endsIn (SameInputs req.deviceId s) fun _ t =>
        SameInputs req.deviceId s t ∧ Admitted s req authedDeviceId) s := by
  refine safe_then (fun _ t => t = s ∧ req.deviceId ≠ "") (safe_ensure (fun h => ⟨rfl, h⟩) fun _ => .refl) ?_
  rintro _ s ⟨rfl, hde⟩
  refine safe_then (fun _ t => t = s ∧ req.deviceId = authedDeviceId)
    (safe_ensure (fun h => ⟨rfl, h⟩) fun _ => .refl) ?_
  rintro _ s ⟨rfl, hau⟩
  refine safe_then (fun _ t => t = s ∧
    (req.preKeys ≠ [] ∨ req.kyberPreKeys ≠ [] ∨ req.hybridIdentity.isSome = true))
    (safe_ensure (fun h => ⟨rfl, h⟩) fun _ => .refl) ?_
  rintro _ s ⟨rfl, hke⟩
  refine safe_then _ (safe_reads .refl fun _ => rfl) ?_
  rintro _ s ⟨rfl, rfl⟩
  refine safe_then _ (safe_reads .refl fun _ => rfl) ?_
  rintro _ s ⟨rfl, rfl⟩
  refine safe_then (fun _ t => t = s ∧ uploadAllowed (activeCount s.oneTimePrekeys req.deviceId)
    (activeCount s.kyberOneTimePreKeys req.deviceId) req.preKeys.length req.kyberPreKeys.length
    req.replaceExisting = .ok ()) (safe_check_mapError (fun _ h => ⟨rfl, h⟩) .refl) ?_
  rintro _ s ⟨rfl, hal⟩
  exact safe_limitReplaces .refl fun hre => ⟨hde, hau, hke, hal, hre⟩

theorem runs_admitUpload (cr : Crypto) (n : Nat) (h : Admitted s req authedDeviceId) :
    ∃ t, Runs (keyExec cr n) (admitUpload authedDeviceId req).run s (.ok ()) t ∧
      SameInputs req.deviceId s t := by
  obtain ⟨t, hl, ht⟩ : ∃ t, Runs (keyExec cr n) (limitReplaces req.deviceId req.replaceExisting).run s (.ok ()) t ∧
        SameInputs req.deviceId s t := by
    unfold limitReplaces
    split
    · rename_i hre
      refine ⟨_, runs_ok (runs_effect none rfl) (runs_pass (h.replaces hre)), ?_⟩
      exact ⟨rfl, rfl, fun _ => rfl, fun _ => rfl⟩
    · exact ⟨s, ⟨rfl, rfl⟩, .refl⟩
  refine ⟨t, ?_, ht⟩
  refine runs_ok (runs_pass h.device) (runs_ok (runs_pass h.authed) (runs_ok (runs_pass h.keys) ?_))
  refine runs_ok (runs_effect none rfl) (runs_ok (runs_effect none rfl) ?_)
  exact runs_ok (runs_passed_mapError h.allowed) hl

/-! ### The signed pre-keys -/

variable {key : SignedPreKey}

theorem rotate_eq {kyber : Option KyberRotation} (hr : t.activeDevice device = some row) :
    t.rotate cr device key none kyber = match kyber with
      | none => .ok (t.updateDevice device (·.rotate key none))
      | some rotation =>
        match checkKyberSignedPrekey cr row.verifyingKey row.hybridIdentityKey rotation t.now with
        | .error e => .error (.kyber e)
        | .ok () => .ok ((t.updateDevice device (·.rotate key none)).updateActive device
            (·.storeKyber rotation)) := by
  obtain ⟨hg, ha⟩ := Option.filter_eq_some_iff.mp hr
  have hro : (t.updateDevice device (·.rotate key none)).activeDevice device =
      some (row.rotate key none) := by
    refine Option.filter_eq_some_iff.mpr ⟨?_, ha⟩
    exact (updates_updateDevice hr).row
  simp only [KeyState.rotate, hg, hro]
  rfl

theorem rotate_case (cr : Crypto) (hk : req.signedPreKey = some key)
    (hr : t.activeDevice device = some row) :
    (∃ t', t.rotate cr device key none (req.kyberSignedPreKey.map fun key => ⟨key, none⟩) = .ok t' ∧
      Updates device (req.storeSigned row) t t' ∧ ∀ key ∈ req.kyberSignedPreKey,
        checkKyberSignedPrekey cr row.verifyingKey row.hybridIdentityKey ⟨key, none⟩ t.now = .ok ()) ∨
    (∃ e, t.rotate cr device key none (req.kyberSignedPreKey.map fun key => ⟨key, none⟩) = .error e) ∧
      ∃ key ∈ req.kyberSignedPreKey,
        checkKyberSignedPrekey cr row.verifyingKey row.hybridIdentityKey ⟨key, none⟩ t.now ≠ .ok () := by
  rw [rotate_eq hr]
  have hu := updates_updateDevice (f := (·.rotate key none)) hr
  cases hky : req.kyberSignedPreKey with
  | none =>
    refine .inl ⟨_, rfl, ?_, nofun⟩
    simpa only [UploadRequest.storeSigned, hk, hky, Option.elim] using hu
  | some k =>
    simp only [Option.map_some]
    cases hch : checkKyberSignedPrekey cr row.verifyingKey row.hybridIdentityKey ⟨k, none⟩
        t.now with
    | error e => exact .inr ⟨⟨_, rfl⟩, k, rfl, by rw [hch]; exact nofun⟩
    | ok =>
      refine .inl ⟨_, rfl, ?_, ?_⟩
      · have ha : (t.updateDevice device (·.rotate key none)).activeDevice device = some (row.rotate key none) :=
          Option.filter_eq_some_iff.mpr ⟨hu.row, (Option.filter_eq_some_iff.mp hr).2⟩
        have h := updates_updateActive (f := (·.storeKyber ⟨k, none⟩)) ha
        simp only [UploadRequest.storeSigned, hk, hky, Option.elim]
        exact ⟨h.now, h.row, h.classic, h.kyber⟩
      · rintro _ ⟨⟩
        exact hch

theorem sameInputs_of_stored (h : ¬SignedAccepted cr t req ∨ SignedUnchanged t req)
    (hr : t.activeDevice req.deviceId = some row) (hac : SignedAccepted cr t req)
    (hu : Updates req.deviceId (req.storeSigned row) t t') : SameInputs req.deviceId t t' :=
  hu.sameInputs hr (h.resolve_left (not_not_intro hac) _ hr)

theorem safe_storeSigned (hk : req.signedPreKey = some key)
    (h : ¬SignedAccepted cr t req ∨ SignedUnchanged t req) :
    keyAlone.Safe (keyExec cr) n () (storeSignedPreKeys cr req.deviceId (some (key, none))
      (req.kyberSignedPreKey.map fun key => ⟨key, none⟩)).run (endsIn (SameInputs req.deviceId t) fun _ t' =>
        SameInputs req.deviceId t t' ∧ SignedAccepted cr t req) t := by
  refine safe_then _ (safe_reads .refl fun _ => rfl) ?_
  rintro _ t ⟨rfl, -⟩
  refine safe_then _ (safe_reads .refl fun _ => rfl) ?_
  rintro _ t ⟨rfl, rfl⟩
  cases hr : t.activeDevice req.deviceId with
  | none => exact .refl
  | some row =>
    refine safe_then (fun _ t' => t' = t ∧
      checkSignedPrekey cr row.verifyingKey row.hybridIdentityKey key none = .ok ())
      (safe_check_mapError (fun _ hch => ⟨rfl, hch⟩) .refl) ?_
    rintro _ t ⟨rfl, hch⟩
    refine safe_then (fun x t' => SameInputs req.deviceId t t' ∧
      (x = .ok () → SignedAccepted cr t req)) (safe_alone .refl fun {_ x t'} he => ?_) ?_
    · rcases rotate_case cr hk hr with ⟨t₁, hro, hu, hky⟩ | ⟨⟨e, hro⟩, -⟩
      · rw [effect_rotate_of_ok hro] at he
        cases he
        have hac : SignedAccepted cr t req := by
          refine .inr ⟨row, hr, ?_, hky⟩
          rw [hk]
          rintro _ ⟨⟩
          exact hch
        have hs := sameInputs_of_stored h hr hac hu
        exact ⟨hs, hs, fun _ => hac⟩
      · rw [effect_rotate_of_error hro] at he
        cases he
        exact ⟨.refl, .refl, nofun⟩
    · rintro x t' ⟨ht', hx⟩
      exact safe_check (fun _ heq => ⟨ht', hx heq⟩) ht'

theorem safe_storeKyber {k : KyberSignedPreKey} (hk : req.signedPreKey = none)
    (hky : req.kyberSignedPreKey = some k) (h : ¬SignedAccepted cr t req ∨ SignedUnchanged t req) :
    keyAlone.Safe (keyExec cr) n () (storeSignedPreKeys cr req.deviceId none (some ⟨k, none⟩)).run
      (endsIn (SameInputs req.deviceId t) fun _ t' => SameInputs req.deviceId t t' ∧ SignedAccepted cr t req) t := by
  refine safe_then _ (safe_reads .refl fun _ => rfl) ?_
  rintro _ t ⟨rfl, -⟩
  refine safe_then _ (safe_reads .refl fun _ => rfl) ?_
  rintro _ t ⟨rfl, rfl⟩
  cases hr : t.activeDevice req.deviceId with
  | none => exact .refl
  | some row =>
    refine safe_then (fun _ t' => t' = t ∧ SignedAccepted cr t req)
      (safe_check_mapError (fun _ hch => ⟨rfl, .inr ⟨row, hr, ?_, ?_⟩⟩) .refl) ?_
    · rw [hk]
      exact nofun
    · rw [hky]
      rintro _ ⟨⟩
      exact hch
    rintro _ t ⟨rfl, hac⟩
    refine safe_then (fun _ t' => SameInputs req.deviceId t t')
      (safe_alone .refl fun {_ x t'} he => ?_) fun found t' ht' =>
        safe_ensure (fun _ => ⟨ht', hac⟩) fun _ => ht'
    cases he
    have hu := updates_updateActive (f := (·.storeKyber ⟨k, none⟩)) hr
    have hs := sameInputs_of_stored h hr hac (by
      simpa only [UploadRequest.storeSigned, hk, hky, Option.elim] using hu)
    exact ⟨hs, hs⟩

theorem safe_uploadSigned (h : ¬SignedAccepted cr t req ∨ SignedUnchanged t req) :
    keyAlone.Safe (keyExec cr) n () (uploadSigned cr req).run (endsIn (SameInputs req.deviceId t) fun _ t' =>
        SameInputs req.deviceId t t' ∧ SignedAccepted cr t req) t := by
  unfold uploadSigned
  refine safe_mapErr ?_
  cases hk : req.signedPreKey with
  | some key => exact safe_storeSigned hk h
  | none =>
    cases hky : req.kyberSignedPreKey with
    | some k => exact safe_storeKyber hk hky h
    | none =>
      refine safe_then _ (safe_reads .refl fun _ => rfl) ?_
      rintro _ t ⟨rfl, -⟩
      refine safe_alone .refl fun he => ?_
      cases he
      exact ⟨.refl, .refl, .inl ⟨hk, hky⟩⟩

theorem stored_iff (hr : t.activeDevice req.deviceId = some row)
    (hu : Updates req.deviceId (req.storeSigned row) t t') : (SignedUnchanged t req → SameInputs req.deviceId t t') ∧
      (¬SignedUnchanged t req → ¬SameServed req.deviceId t t') := by
  refine ⟨fun h => hu.sameInputs hr (h row hr), fun h => ?_⟩
  refine hu.not_sameServed hr fun hke => h fun row' hr' => ?_
  cases hr.symm.trans hr'
  exact hke

theorem runs_uploadSigned (h : SignedAccepted cr t req) :
    ∃ t', Runs (keyExec cr n) (uploadSigned cr req).run t (.ok ()) t' ∧
      (SignedUnchanged t req → SameInputs req.deviceId t t') ∧
      (¬SignedUnchanged t req → ¬SameServed req.deviceId t t') := by
  have hma : ∀ {p : Fallible KeyStatement KeyStatement.Reply SignedPreKeyError Unit} {t'},
      Runs (keyExec cr n) p.run t (.ok ()) t' →
      Runs (keyExec cr n) (mapErr (fun e => internalError e.text) p).run t (.ok ()) t' :=
    fun hp => runs_mapErr.mpr ⟨_, hp, rfl⟩
  unfold uploadSigned
  cases hke : req.signedPreKey with
  | some key =>
    obtain ⟨hno, -⟩ | ⟨row, hr, hsi, hky⟩ := h
    · rw [hke] at hno
      cases hno
    obtain ⟨t', hro, hu, -⟩ | ⟨-, k, hk, hf⟩ := rotate_case cr hke hr
    · refine ⟨t', hma ?_, stored_iff hr hu⟩
      refine runs_ok (runs_effect none rfl) (runs_ok (runs_effect none rfl) ?_)
      simp only [hr, Option.map_some]
      refine runs_ok (runs_passed_mapError (hsi key hke)) ?_
      exact runs_ok (a := Except.ok ()) (runs_effect none (effect_rotate_of_ok hro)) (runs_passed rfl)
    · exact absurd (hky k hk) hf
  | none =>
    cases hky : req.kyberSignedPreKey with
    | some k =>
      obtain ⟨-, hno⟩ | ⟨row, hr, -, hch⟩ := h
      · rw [hky] at hno
        cases hno
      have hu := updates_updateActive (f := (·.storeKyber ⟨k, none⟩)) hr
      refine ⟨t.updateActive req.deviceId (·.storeKyber ⟨k, none⟩), hma ?_, stored_iff hr ?_⟩
      · refine runs_ok (runs_effect none rfl) (runs_ok (runs_effect none rfl) ?_)
        simp only [hr, Option.map_some]
        refine runs_ok (runs_passed_mapError (hch k hky)) ?_
        refine runs_ok (runs_effect none rfl) (runs_pass ?_)
        rw [hr]
        rfl
      · simpa only [UploadRequest.storeSigned, hke, hky, Option.elim] using hu
    | none =>
      refine ⟨t, hma (runs_ok (runs_effect none rfl) (runs_effect none rfl)), fun _ => .refl, fun hn => ?_⟩
      refine absurd (fun row _ => ?_) hn
      simp only [UploadRequest.storeSigned, hke, hky, Option.elim]

/-! ### The hybrid identity -/

theorem safe_uploadHybrid (h : ¬HybridAccepted cr t req ∨ HybridUnchanged cr t req) :
    keyAlone.Safe (keyExec cr) n () (uploadHybrid cr req).run (endsIn (SameInputs req.deviceId t) fun _ t' =>
        SameInputs req.deviceId t t' ∧ HybridAccepted cr t req) t := by
  unfold uploadHybrid
  cases hu : req.hybridIdentity with
  | none =>
    refine ⟨.refl, fun upload hm => ?_⟩
    rw [hu] at hm
    cases hm
  | some upload =>
    refine safe_mapErr (safe_then (fun _ t' => t' = t ∧
      validateSize "hybrid_identity_key" hybridSigPublicKeySize upload.hybridIdentityKey = .ok ())
      (safe_check (fun _ hsi => ⟨rfl, hsi⟩) .refl) ?_)
    rintro _ t ⟨rfl, hsi⟩
    refine safe_then (fun _ t' => t' = t ∧ validateEd25519Signature upload.hybridIdentitySignature = .ok ())
      (safe_check (fun _ hs => ⟨rfl, hs⟩) .refl) ?_
    rintro _ t ⟨rfl, hs⟩
    refine safe_then _ (safe_reads .refl fun _ => rfl) ?_
    rintro _ t ⟨rfl, rfl⟩
    cases hr : t.activeDevice req.deviceId with
    | none => exact .refl
    | some row =>
      refine safe_then (fun _ t' => t' = t ∧ HybridAccepted cr t req) (safe_check (fun _ hcr => ⟨rfl, ?_⟩) .refl) ?_
      · rw [HybridAccepted, hu]
        rintro _ ⟨⟩
        exact ⟨hsi, hs, row, hr, hcr⟩
      rintro _ t ⟨rfl, hac⟩
      refine safe_alone .refl fun he => ?_
      cases he
      have hup := updates_updateActive (f := upload.store cr row.hybridVerify) hr
      have hsa := hup.sameInputs hr (h.resolve_left (not_not_intro hac) upload hu row hr)
      exact ⟨hsa, hsa, hac⟩

theorem runs_uploadHybrid (h : HybridAccepted cr t req) :
    ∃ t', Runs (keyExec cr n) (uploadHybrid cr req).run t (.ok ()) t' ∧
      (HybridUnchanged cr t req → SameInputs req.deviceId t t') ∧
      (¬HybridUnchanged cr t req → ¬SameServed req.deviceId t t') := by
  unfold uploadHybrid
  cases hu : req.hybridIdentity with
  | none =>
    refine ⟨t, ⟨rfl, rfl⟩, fun _ => .refl, fun hn => absurd (fun upload hm => ?_) hn⟩
    rw [hu] at hm
    cases hm
  | some upload =>
    obtain ⟨hsi, hs, row, hr, hcr⟩ := h upload hu
    have hup := updates_updateActive (f := upload.store cr row.hybridVerify) hr
    refine ⟨t.updateActive req.deviceId (upload.store cr row.hybridVerify),
      runs_mapErr.mpr ⟨.ok (), ?_, rfl⟩, fun hsa => ?_, fun hn => ?_⟩
    · refine runs_ok (runs_passed hsi) (runs_ok (runs_passed hs) (runs_ok (runs_effect none rfl) ?_))
      simp only [hr, Option.map_some]
      exact runs_ok (runs_passed hcr) (runs_effect none rfl)
    · exact hup.sameInputs hr (hsa upload hu row hr)
    · refine hup.not_sameServed hr fun hke => hn fun upload' hm row' hr' => ?_
      cases hu.symm.trans hm
      cases hr.symm.trans hr'
      exact hke

/-! ### The one-time keys -/

section

variable {ρ : Type} {table : Table KeyRef (OneTimeRow ρ)} {ref : KeyRef}
  {keys : List (UInt32 × ρ)}

def insertRows (device : String) (keys : List (UInt32 × ρ)) (table : Table KeyRef (OneTimeRow ρ)) :
    Table KeyRef (OneTimeRow ρ) :=
  keys.foldl (fun table k => table.insertNew ⟨device, k.1⟩ ⟨k.2, none⟩) table

theorem get?_insertRows_of_some {r : OneTimeRow ρ} (h : table.get? ref = some r) :
    (insertRows device keys table).get? ref = some r := by
  induction keys generalizing table with
  | nil => exact h
  | cons k keys ih =>
    refine ih ?_
    rw [Table.get?_insertNew]
    split
    · rename_i hr
      rw [← hr, h, Option.some_or]
    · exact h

theorem get?_insertRows_of_mem {k : UInt32 × ρ} (hk : k ∈ keys) (h : table.get? ⟨device, k.1⟩ = none) :
    ∃ key, (insertRows device keys table).get? ⟨device, k.1⟩ = some ⟨key, none⟩ := by
  induction keys generalizing table with
  | nil => cases hk
  | cons k' keys ih =>
    by_cases hid : k'.1 = k.1
    · have hn : (table.insertNew ⟨device, k'.1⟩ ⟨k'.2, none⟩).get? ⟨device, k.1⟩ =
          some ⟨k'.2, none⟩ := by
        rw [hid, Table.get?_insertNew_self, h, Option.none_or]
      exact ⟨k'.2, (get?_insertRows_of_some hn : (insertRows device keys _).get? _ = _)⟩
    · rcases mem_cons.mp hk with rfl | hk
      · exact absurd rfl hid
      · refine ih hk ?_
        rw [Table.get?_insertNew_of_ne fun heq => hid (KeyRef.mk.inj heq).2.symm, h]

theorem get?_expireAll_of_inactive {now : Nat} (h : activeKey table ref = none) :
    (expireAll now device table).get? ref = table.get? ref := by
  rw [expireAll, Table.get?_modify]
  cases hg : table.get? ref with
  | none => rfl
  | some r =>
    have he : r.expiredAt ≠ none := by
      intro hno
      simp [activeKey, hg, hno] at h
    rw [Option.map_some]
    split
    · rw [OneTimeRow.expire, if_neg he]
    · rfl

theorem get?_insertNew_of_isSome {ref' : KeyRef} {r : OneTimeRow ρ}
    (h : (table.get? ref).isSome = true) : (table.insertNew ref r).get? ref' = table.get? ref' := by
  rw [Table.get?_insertNew]
  split
  · rename_i hr
    obtain ⟨r', hr'⟩ := Option.isSome_iff_exists.mp h
    rw [hr, hr', Option.some_or]
  · rfl

theorem rows_unchanged {now : Nat} {replace : Bool} (h : ∀ id, activeKey (insertRows device keys
      (if replace then expireAll now device table else table)) ⟨device, id⟩ = activeKey table ⟨device, id⟩) :
    (replace = true → ∀ id, activeKey table ⟨device, id⟩ = none) ∧
      ∀ k ∈ keys, (table.get? ⟨device, k.1⟩).isSome = true := by
  constructor
  · intro hre id
    by_contra ha
    obtain ⟨key, hke⟩ := Option.ne_none_iff_exists'.mp ha
    have he : (expireAll now device table).get? ⟨device, id⟩ = some ⟨key, some now⟩ := by
      rw [expireAll, Table.get?_modify, activeKey_eq_some_iff.mp hke]
      simp [OneTimeRow.expire]
    have hid := h id
    rw [if_pos hre, hke, activeKey_eq_some_iff, get?_insertRows_of_some he] at hid
    cases hid
  · intro k hk
    by_contra hf
    have hno := Option.not_isSome_iff_eq_none.mp hf
    have hbe : (if replace then expireAll now device table else table).get? ⟨device, k.1⟩ =
        none := by
      split
      · rw [expireAll, Table.get?_modify, hno, Option.map_none]
      · exact hno
    obtain ⟨key, hke⟩ := get?_insertRows_of_mem hk hbe
    have hid := h k.1
    rw [activeKey_eq_some_iff.mpr hke] at hid
    rw [activeKey_eq_some_iff.mp hid.symm] at hno
    cases hno

end

def kyberRows (keys : List KyberUpload) : List (UInt32 × KyberOneTimePreKey) :=
  keys.map fun k => (k.keyId, k.stored)

theorem runs_insertClassicKeys {keys : List (UInt32 × Bytes)} :
    Runs (keyExec cr n) (insertClassicKeys device keys).run t (.ok ())
      { t with oneTimePrekeys := insertRows device keys t.oneTimePrekeys } := by
  induction keys generalizing t with
  | nil => exact ⟨rfl, rfl⟩
  | cons k keys ih => exact runs_ok (runs_effect none rfl) ih

theorem runs_insertKyberKeys {keys : List KyberUpload} {read : Option Bytes} :
    Runs (keyExec cr n) (insertKyberKeys device read keys).run t (.ok ())
      { t with kyberOneTimePreKeys := insertRows device (kyberRows keys) t.kyberOneTimePreKeys } := by
  induction keys generalizing t with
  | nil => exact ⟨rfl, rfl⟩
  | cons k keys ih => exact runs_ok (runs_effect none rfl) ih

theorem runs_checkedKyberKeys (h : KeysAccepted cr t req) :
    ∃ read, Runs (keyExec cr n) (checkedKyberKeys cr req.deviceId req.kyberPreKeys).run t (.ok read) t := by
  obtain ⟨row, hr, hch⟩ := h
  unfold checkedKyberKeys
  split
  · exact ⟨none, rfl, rfl⟩
  · refine ⟨row.hybridIdentityKey, runs_ok (runs_effect none rfl) ?_⟩
    simp only [hr, Option.map_some]
    exact runs_ok (runs_passed hch) ⟨rfl, rfl⟩

def UploadRequest.storeKeys (req : UploadRequest) (t : KeyState) : KeyState :=
  { t with
    oneTimePrekeys := insertRows req.deviceId req.preKeys
      (if req.replaceExisting then expireAll t.now req.deviceId t.oneTimePrekeys
      else t.oneTimePrekeys)
    kyberOneTimePreKeys := insertRows req.deviceId (kyberRows req.kyberPreKeys)
      (if req.replaceExisting then expireAll t.now req.deviceId t.kyberOneTimePreKeys
      else t.kyberOneTimePreKeys) }

theorem runs_storeKeys (h : KeysAccepted cr t req) :
    ∃ counts, Runs (keyExec cr n) (mapErr internalError (storePrekeys cr req.deviceId req.preKeys
      req.replaceExisting req.kyberPreKeys)).run t (.ok counts) (req.storeKeys t) := by
  obtain ⟨read, hch⟩ := runs_checkedKyberKeys (n := n) h
  obtain ⟨row, hr, -⟩ := h
  have he : Runs (keyExec cr n) (expireExisting req.deviceId req.replaceExisting).run t (.ok ())
      (if req.replaceExisting then { t with
        oneTimePrekeys := expireAll t.now req.deviceId t.oneTimePrekeys
        kyberOneTimePreKeys := expireAll t.now req.deviceId t.kyberOneTimePreKeys } else t) := by
    unfold expireExisting
    split
    · exact runs_ok (runs_effect none rfl) (runs_effect none rfl)
    · exact ⟨rfl, rfl⟩
  refine ⟨(activeCount (req.storeKeys t).oneTimePrekeys req.deviceId,
    activeCount (req.storeKeys t).kyberOneTimePreKeys req.deviceId),
    runs_mapErr.mpr ⟨.ok _, ?_, rfl⟩⟩
  refine runs_ok (runs_effect none rfl) (runs_ok (runs_pass ?_) (runs_ok hch (runs_ok he ?_)))
  · rw [hr]
    rfl
  refine runs_ok runs_insertClassicKeys (runs_ok runs_insertKyberKeys ?_)
  refine runs_ok (runs_effect none rfl) (runs_ok (runs_effect none rfl) ?_)
  unfold UploadRequest.storeKeys
  split <;> exact ⟨rfl, rfl⟩

theorem keysUnchanged_of_sameServed (h : SameServed req.deviceId t (req.storeKeys t)) :
    KeysUnchanged t req := by
  obtain ⟨he, hcl⟩ := rows_unchanged h.classic
  obtain ⟨heKyber, hky⟩ := rows_unchanged h.kyber
  refine ⟨fun hre id => ⟨he hre id, heKyber hre id⟩, hcl, fun k hk => ?_⟩
  exact hky (k.keyId, k.stored) (mem_map_of_mem hk)

theorem safe_checkedKyberKeys (hr : t.activeDevice req.deviceId = some row) :
    keyAlone.Safe (keyExec cr) n () (checkedKyberKeys cr req.deviceId req.kyberPreKeys).run
      (endsIn (SameInputs req.deviceId t) fun _ t' => t' = t ∧ KeysAccepted cr t req) t := by
  unfold checkedKyberKeys
  split
  · rename_i hem
    refine ⟨rfl, row, hr, ?_⟩
    rw [isEmpty_iff.mp hem]
    rfl
  · refine safe_then _ (safe_reads .refl fun _ => rfl) ?_
    rintro _ t ⟨rfl, rfl⟩
    simp only [hr, Option.map_some]
    refine safe_then (fun _ t' => t' = t ∧ KeysAccepted cr t req)
      (safe_check (fun _ hch => ⟨rfl, row, hr, hch⟩) .refl) fun _ _ h => h

section

variable (h : KeysUnchanged s req)

include h

theorem safe_expireExisting_unchanged (ht : SameInputs req.deviceId s t) :
    keyAlone.Safe (keyExec cr) n () (expireExisting req.deviceId req.replaceExisting).run
      (endsIn (SameInputs req.deviceId s) fun _ => SameInputs req.deviceId s) t := by
  unfold expireExisting
  split
  · rename_i hre
    refine safe_then (fun _ => SameInputs req.deviceId s) (safe_alone ht fun he => ?_)
      fun _ t ht => safe_alone ht fun he => ?_
    · cases he
      have hs : SameInputs req.deviceId s { t with
          oneTimePrekeys := expireAll t.now req.deviceId t.oneTimePrekeys } := by
        refine ⟨ht.now, ht.row, fun id => ?_, ht.kyber⟩
        have hno := (ht.served.classic id).trans (h.expired hre id).1
        exact (get?_expireAll_of_inactive hno).trans (ht.classic id)
      exact ⟨hs, hs⟩
    · cases he
      have hs : SameInputs req.deviceId s { t with
          kyberOneTimePreKeys := expireAll t.now req.deviceId t.kyberOneTimePreKeys } := by
        refine ⟨ht.now, ht.row, ht.classic, fun id => ?_⟩
        have hno := (ht.served.kyber id).trans (h.expired hre id).2
        exact (get?_expireAll_of_inactive hno).trans (ht.kyber id)
      exact ⟨hs, hs⟩
  · exact ht

theorem safe_insertClassicKeys_unchanged {keys : List (UInt32 × Bytes)}
    (hke : ∀ k ∈ keys, k ∈ req.preKeys) (ht : SameInputs req.deviceId s t) :
    keyAlone.Safe (keyExec cr) n () (insertClassicKeys req.deviceId keys).run
      (endsIn (SameInputs req.deviceId s) fun _ => SameInputs req.deviceId s) t := by
  induction keys generalizing t with
  | nil => exact ht
  | cons k keys ih =>
    refine safe_then (fun _ => SameInputs req.deviceId s) (safe_alone ht fun he => ?_)
      fun _ t ht => ih (fun k hk => hke k (mem_cons_of_mem _ hk)) ht
    cases he
    have hp : (t.oneTimePrekeys.get? ⟨req.deviceId, k.1⟩).isSome = true :=
      ht.classic k.1 ▸ h.classic k (hke k mem_cons_self)
    have hs : SameInputs req.deviceId s { t with
        oneTimePrekeys := t.oneTimePrekeys.insertNew ⟨req.deviceId, k.1⟩ ⟨k.2, none⟩ } :=
      ⟨ht.now, ht.row, fun id => (get?_insertNew_of_isSome hp).trans (ht.classic id), ht.kyber⟩
    exact ⟨hs, hs⟩

theorem safe_insertKyberKeys_unchanged {keys : List KyberUpload} {read : Option Bytes}
    (hke : ∀ k ∈ keys, k ∈ req.kyberPreKeys) (ht : SameInputs req.deviceId s t) :
    keyAlone.Safe (keyExec cr) n () (insertKyberKeys req.deviceId read keys).run
      (endsIn (SameInputs req.deviceId s) fun _ => SameInputs req.deviceId s) t := by
  induction keys generalizing t with
  | nil => exact ht
  | cons k keys ih =>
    refine safe_then (fun _ => SameInputs req.deviceId s) (safe_alone ht fun he => ?_)
      fun _ t ht => ih (fun k hk => hke k (mem_cons_of_mem _ hk)) ht
    cases he
    have hp : (t.kyberOneTimePreKeys.get? ⟨req.deviceId, k.keyId⟩).isSome = true :=
      ht.kyber k.keyId ▸ h.kyber k (hke k mem_cons_self)
    have hs : SameInputs req.deviceId s { t with
        kyberOneTimePreKeys := t.kyberOneTimePreKeys.insertNew ⟨req.deviceId, k.keyId⟩
          ⟨k.stored, none⟩ } :=
      ⟨ht.now, ht.row, ht.classic, fun id => (get?_insertNew_of_isSome hp).trans (ht.kyber id)⟩
    exact ⟨hs, hs⟩

end

theorem safe_storeKeys (h : ¬KeysAccepted cr t req ∨ KeysUnchanged t req) :
    keyAlone.Safe (keyExec cr) n () (mapErr internalError (storePrekeys cr req.deviceId req.preKeys
      req.replaceExisting req.kyberPreKeys)).run
      (endsIn (SameInputs req.deviceId t) fun _ => SameInputs req.deviceId t) t := by
  refine safe_mapErr (safe_then _ (safe_reads .refl fun _ => rfl) ?_)
  rintro _ t ⟨rfl, rfl⟩
  cases hr : t.activeDevice req.deviceId with
  | none => exact safe_then (fun _ _ => False) (safe_ensure nofun fun _ => .refl) fun _ _ => False.elim
  | some row =>
    refine safe_then (fun _ t' => t' = t) (safe_ensure (fun _ => rfl) fun _ => .refl) ?_
    rintro _ t rfl
    refine safe_then _ (safe_checkedKyberKeys hr) ?_
    rintro read t ⟨rfl, hac⟩
    have hs := h.resolve_left (not_not_intro hac)
    refine safe_then _ (safe_expireExisting_unchanged hs .refl) fun _ t₁ ht₁ => ?_
    refine safe_then _ (safe_insertClassicKeys_unchanged hs (fun _ hk => hk) ht₁) fun _ t₂ ht₂ => ?_
    refine safe_then _ (safe_insertKyberKeys_unchanged hs (fun _ hk => hk) ht₂) fun _ t₃ ht₃ => ?_
    refine safe_then _ (safe_reads ht₃ fun _ => rfl) ?_
    rintro _ t₃ ⟨rfl, -⟩
    refine safe_then _ (safe_reads ht₃ fun _ => rfl) ?_
    rintro _ t₃ ⟨rfl, -⟩
    exact ht₃

/-! ### The whole call -/

theorem SameInputs.trans {u : KeyState} (h : SameInputs device s t) (h' : SameInputs device t u) :
    SameInputs device s u :=
  ⟨h'.now.trans h.now, h'.row.trans h.row, fun id => (h'.classic id).trans (h.classic id),
    fun id => (h'.kyber id).trans (h.kyber id)⟩

theorem SameServed.of_sameInputs {u : KeyState} (h : SameInputs device s t)
    (hs : SameServed device s u) : SameServed device t u :=
  ⟨hs.row.trans h.row.symm, fun id => (hs.classic id).trans (h.symm.served.classic id),
    fun id => (hs.kyber id).trans (h.symm.served.kyber id)⟩

theorem safe_setSupports {supports : Bool} (ht : SameInputs device s t) : keyAlone.Safe (keyExec cr) n ()
      (mapErr internalError (setDeviceSupportsPqRatchet device supports)).run
      (endsIn (SameInputs device s) fun _ => SameInputs device s) t := by
  refine safe_mapErr (safe_then _ (safe_reads ht fun _ => rfl) ?_)
  rintro _ t ⟨rfl, rfl⟩
  refine safe_then (fun _ t' => t' = t) (safe_ensure (fun _ => rfl) fun _ => ht) ?_
  rintro _ t rfl
  refine safe_alone ht fun he => ?_
  cases he
  have hs : SameInputs device t (t.updateActive device fun row =>
      { row with supportsPqRatchet := supports }) := by
    refine ⟨rfl, ?_, fun _ => rfl, fun _ => rfl⟩
    simp only [KeyState.updateActive, KeyState.updateDevice, Table.get?_modify, Option.map_map]
    refine congrArg (fun f => (t.devices.get? device).map f) (funext fun row => ?_)
    simp only [Function.comp_apply, if_true]
    split <;> rfl
  exact ⟨ht.trans hs, ht.trans hs⟩

theorem verifyingKey_eq (h : row.servedKeys = row'.servedKeys) : row.verifyingKey = row'.verifyingKey := by
  have hk := congrArg DeviceRow.verifyingKey h
  exact hk

theorem hybridIdentityKey_eq (h : row.servedKeys = row'.servedKeys) :
    row.hybridIdentityKey = row'.hybridIdentityKey := by
  have hk := congrArg DeviceRow.hybridIdentityKey h
  exact hk

section

variable (h : SameInputs req.deviceId s t)

include h

theorem SameInputs.signedAccepted (ha : SignedAccepted cr s req) : SignedAccepted cr t req := by
  obtain hno | ⟨row, hr, hsi, hky⟩ := ha
  · exact .inl hno
  · obtain ⟨row', hr', hke⟩ := h.symm.activeDevice hr
    rw [verifyingKey_eq hke, hybridIdentityKey_eq hke] at hsi hky
    exact .inr ⟨row', hr', hsi, by rwa [h.now]⟩

theorem SameInputs.signedUnchanged (hu : SignedUnchanged s req) : SignedUnchanged t req := by
  intro row' hr'
  obtain ⟨row, hr, hke⟩ := h.activeDevice hr'
  have hst : ∀ r : DeviceRow,
      (req.storeSigned r).servedKeys = (req.storeSigned r.servedKeys).servedKeys := by
    intro r
    unfold UploadRequest.storeSigned
    cases req.signedPreKey <;> cases req.kyberSignedPreKey <;> rfl
  rw [hst, hke, ← hst]
  exact hu row hr

theorem SameInputs.hybridAccepted (ha : HybridAccepted cr s req) : HybridAccepted cr t req := by
  intro upload hu
  obtain ⟨hsi, hs, row, hr, hcr⟩ := ha upload hu
  obtain ⟨row', hr', hke⟩ := h.symm.activeDevice hr
  rw [verifyingKey_eq hke] at hcr
  exact ⟨hsi, hs, row', hr', hcr⟩

theorem SameInputs.hybridUnchanged (hu : HybridUnchanged cr s req) : HybridUnchanged cr t req := by
  intro upload hup row' hr'
  obtain ⟨row, hr, hke⟩ := h.activeDevice hr'
  have hst : ∀ r : DeviceRow, (upload.store cr r.hybridVerify r).servedKeys =
      (upload.store cr r.servedKeys.hybridVerify r.servedKeys).servedKeys := fun _ => rfl
  rw [hst, hke, ← hst]
  exact hu upload hup row hr

theorem SameInputs.keysAccepted (ha : KeysAccepted cr s req) : KeysAccepted cr t req := by
  obtain ⟨row, hr, hch⟩ := ha
  obtain ⟨row', hr', hke⟩ := h.symm.activeDevice hr
  rw [verifyingKey_eq hke, hybridIdentityKey_eq hke, ← h.now] at hch
  exact ⟨row', hr', hch⟩

theorem SameInputs.keysUnchanged (hu : KeysUnchanged s req) : KeysUnchanged t req :=
  ⟨fun hre id => ⟨(h.served.classic id).trans (hu.expired hre id).1,
      (h.served.kyber id).trans (hu.expired hre id).2⟩,
    fun k hk => h.classic k.1 ▸ hu.classic k hk, fun k hk => h.kyber k.keyId ▸ hu.kyber k hk⟩

end

theorem safe_since {α E : Type} {p : Fallible KeyStatement KeyStatement.Reply E α}
    {post : α → KeyState → Prop} (h : SameInputs device s t) (hp : keyAlone.Safe (keyExec cr) n () p.run
      (endsIn (SameInputs device t) fun a t' => SameInputs device t t' ∧ post a t') t) :
    keyAlone.Safe (keyExec cr) n () p.run
      (endsIn (SameInputs device s) fun a t' => SameInputs device s t' ∧ post a t') t := by
  refine hp.mono fun r t' hr => ?_
  cases r with
  | ok a => exact ⟨h.trans hr.1, hr.2⟩
  | error e => exact h.trans hr

theorem safe_uploadPreKeys_harmless (h : Harmless cr s req authedDeviceId) :
    keyAlone.Safe (keyExec cr) n () (uploadPreKeys cr authedDeviceId req).run
      (endsIn (SameInputs req.deviceId s) fun _ => SameInputs req.deviceId s) s := by
  refine safe_then _ safe_admitUpload ?_
  rintro _ t ⟨ht, had⟩
  have h := h.resolve_left (not_not_intro had)
  have hsi : ¬SignedAccepted cr t req ∨ SignedUnchanged t req :=
    h.imp (fun hn ha => hn (ht.symm.signedAccepted ha)) fun hu => ht.signedUnchanged hu.1
  refine safe_then _ (safe_since ht (safe_uploadSigned hsi)) ?_
  rintro _ t₁ ⟨ht₁, hac⟩
  have h := (h.resolve_left (not_not_intro (ht.symm.signedAccepted hac))).2
  have hh : ¬HybridAccepted cr t₁ req ∨ HybridUnchanged cr t₁ req :=
    h.imp (fun hn ha => hn (ht₁.symm.hybridAccepted ha)) fun hu => ht₁.hybridUnchanged hu.1
  refine safe_then _ (safe_since ht₁ (safe_uploadHybrid hh)) ?_
  rintro _ t₂ ⟨ht₂, hac⟩
  have h := (h.resolve_left (not_not_intro (ht₁.symm.hybridAccepted hac))).2
  have hke : ¬KeysAccepted cr t₂ req ∨ KeysUnchanged t₂ req :=
    h.imp (fun hn ha => hn (ht₂.symm.keysAccepted ha)) fun hu => ht₂.keysUnchanged hu
  refine safe_then (fun _ => SameInputs req.deviceId s) ((safe_storeKeys hke).mono fun r t' hr => ?_)
    fun counts t₃ ht₃ => ?_
  · cases r with
    | ok | error => exact ht₂.trans hr
  · exact safe_then _ (safe_setSupports ht₃) fun _ _ ht₄ => ht₄

theorem runs_uploadHybrid_unchanged (cr : Crypto) (n : Nat) (t : KeyState) (req : UploadRequest) :
    Runs (keyExec cr n) (uploadHybrid cr req).run t (.ok ()) t ∨
      ∃ e, Runs (keyExec cr n) (uploadHybrid cr req).run t (.error e) t := by
  unfold uploadHybrid
  cases req.hybridIdentity with
  | none => exact .inl ⟨rfl, rfl⟩
  | some upload =>
    obtain ⟨e, he⟩ : ∃ e, Runs (keyExec cr n) (storeHybridIdentity cr req.deviceId upload).run t
        (.error e) t := by
      cases hsi : validateSize "hybrid_identity_key" hybridSigPublicKeySize
          upload.hybridIdentityKey with
      | error e => exact ⟨e, runs_error ⟨hsi.symm, rfl⟩⟩
      | ok =>
        cases hs : validateEd25519Signature upload.hybridIdentitySignature with
        | error e => exact ⟨e, runs_ok (runs_passed hsi) (runs_error ⟨hs.symm, rfl⟩)⟩
        | ok =>
          exact ⟨_, runs_ok (runs_passed hsi) (runs_ok (runs_passed hs) (runs_error (runs_failure none)))⟩
    exact .inr ⟨_, runs_mapErr.mpr ⟨_, he, rfl⟩⟩

/-- An upload that answers with an error has left everything that is served as it was, whichever
check or statement fails, exactly if none of its parts that are carried out changes anything. -/
theorem refused_upload_unchanged_iff (cr : Crypto) (n : Nat) (s : KeyState) (authedDeviceId : String)
    (req : UploadRequest) :
    (∀ status s', Runs (keyExec cr n) (uploadPreKeys cr authedDeviceId req).run s (.error status) s' →
      SameServed req.deviceId s s') ↔ Harmless cr s req authedDeviceId := by
  constructor
  · intro h
    by_contra hnot
    simp only [Harmless, not_or, not_and, not_not] at hnot
    obtain ⟨hadmitted, hsigned, hrest⟩ := hnot
    obtain ⟨t, hadmit, ht⟩ := runs_admitUpload cr n hadmitted
    obtain ⟨t₁, hruns₁, hsame₁, hnew₁⟩ := runs_uploadSigned (n := n) (ht.signedAccepted hsigned)
    -- From here on the next statement can fail.
    have hkeys : ∀ {u}, ∃ e, Runs (keyExec cr n) (mapErr internalError (storePrekeys cr req.deviceId
        req.preKeys req.replaceExisting req.kyberPreKeys)).run u (.error e) u :=
      ⟨_, runs_mapErr.mpr ⟨_, runs_error (runs_failure none), rfl⟩⟩
    by_cases hu : SignedUnchanged t req
    · have ht₁ := ht.trans (hsame₁ hu)
      obtain ⟨hhybrid, hrest⟩ := hrest (ht.symm.signedUnchanged hu)
      obtain ⟨t₂, hruns₂, hsame₂, hnew₂⟩ := runs_uploadHybrid (n := n) (ht₁.hybridAccepted hhybrid)
      by_cases hu : HybridUnchanged cr t₁ req
      · have ht₂ := ht₁.trans (hsame₂ hu)
        obtain ⟨hkeys, hnew⟩ := hrest (ht₁.symm.hybridUnchanged hu)
        obtain ⟨counts, hruns₃⟩ := runs_storeKeys (n := n) (ht₂.keysAccepted hkeys)
        have hserved := h _ _ (runs_ok hadmit (runs_ok hruns₁ (runs_ok hruns₂ (runs_ok hruns₃
          (runs_error (runs_mapErr.mpr ⟨_, runs_error (runs_failure none), rfl⟩))))))
        exact hnew (ht₂.symm.keysUnchanged (keysUnchanged_of_sameServed (hserved.of_sameInputs ht₂)))
      · obtain ⟨e, he⟩ := hkeys
        have hserved := h _ _ (runs_ok hadmit (runs_ok hruns₁ (runs_ok hruns₂ (runs_error he))))
        exact hnew₂ hu (hserved.of_sameInputs ht₁)
    · have hserved : SameServed req.deviceId s t₁ := by
        rcases runs_uploadHybrid_unchanged cr n t₁ req with hpass | ⟨e, he⟩
        · obtain ⟨e, he⟩ := hkeys
          exact h _ _ (runs_ok hadmit (runs_ok hruns₁ (runs_ok hpass (runs_error he))))
        · exact h _ _ (runs_ok hadmit (runs_ok hruns₁ (runs_error he)))
      exact hnew₁ hu (hserved.of_sameInputs ht)
  · intro h status s' hruns
    exact SameInputs.served ((safe_uploadPreKeys_harmless h).of_runs hruns)

def refusedUpload : UploadRequest :=
  { demoUpload [] false with
    signedPreKey := some ⟨2, [9], List.replicate 64 0⟩
    hybridIdentityKey := some [1] }

def refusedStatus : Status :=
  ⟨.invalidArgument,
    "hybrid identity rejected: Invalid hybrid_identity_key size: expected 1984 bytes, got 1"⟩

/-- The signed pre-key is stored before the hybrid identity is refused. No statement fails. -/
theorem refused_upload_changes :
    ∃ s', Runs (keyExec demoCrypto 0) (uploadPreKeys demoCrypto "d" refusedUpload).run demoKeys
        (.error refusedStatus) s' ∧ (s'.devices.get? "d").map DeviceRow.signedPrekeyPublic = some [9] ∧
      ¬SameServed "d" demoKeys s' := by
  have hend : (execute (keyExec demoCrypto 0) (uploadPreKeys demoCrypto "d" refusedUpload).run
      (List.replicate 5 ⟨.ok, none⟩) demoKeys).map (fun (r, s') =>
        (match r with
          | .error status => decide (status = refusedStatus)
          | .ok _ => false, (s'.devices.get? "d").map DeviceRow.signedPrekeyPublic)) =
      some (true, some [9]) := by
    decide +kernel
  obtain ⟨⟨r, s'⟩, hexec, hout⟩ := Option.map_eq_some_iff.mp hend
  obtain ⟨hstatus, hkey⟩ := Prod.mk.inj hout
  cases r with
  | ok counts => cases hstatus
  | error status =>
    cases of_decide_eq_true hstatus
    refine ⟨s', runs_of_execute hexec, hkey, fun h => ?_⟩
    have hrow := congrArg (Option.map DeviceRow.signedPrekeyPublic) h.row
    simp only [Option.map_map] at hrow
    have hold : (demoKeys.devices.get? "d").map DeviceRow.signedPrekeyPublic = some [1] := by
      decide +kernel
    have heq : (some [9] : Option Bytes) = some [1] := hkey.symm.trans (Eq.trans hrow hold)
    exact absurd heq (by decide)

end ConstructServer.KeyService
