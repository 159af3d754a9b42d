import Mathlib.Logic.Relation
import ConstructServer.KeyService.PreKeys

/-!
# Uploads that replace the one-time keys

A replacing upload expires what is active and inserts its own keys. An expired row keeps its key id
for 48 hours, and the insert of a key under an id that is taken does nothing. So the new keys are
the active ones afterwards if the device had no row under their ids when the upload began; keys that
are served in the meantime, and the cleanup of old rows, do no harm.
-/

namespace ConstructServer.KeyService

open Calls Machine List
open Queue (Bytes)

/-! ### The pools -/

/-- A pool of one-time keys: the ids with a row, the active keys, and the log of what was served. -/
structure View where
  present : KeyRef → Bool
  active : KeyRef → Option Bytes
  log : List (Nat × KeyRef × Bytes)

def KeyState.classicView (s : KeyState) : View :=
  ⟨fun ref => (s.oneTimePrekeys.get? ref).isSome, activeKey s.oneTimePrekeys, s.served⟩

def KeyState.kyberView (s : KeyState) : View :=
  ⟨fun ref => (s.kyberOneTimePreKeys.get? ref).isSome,
    fun ref => (activeKey s.kyberOneTimePreKeys ref).map KyberOneTimePreKey.publicKey,
    s.servedKyber⟩

/-- What others may do to the keys of a device: serve one, or let rows that are not active go. -/
inductive ViewStep (device : String) (v v' : View) : Prop
  | quiet (hlog : v'.log = v.log) (hactive : ∀ id, v'.active ⟨device, id⟩ = v.active ⟨device, id⟩)
      (hpresent : ∀ id, v'.present ⟨device, id⟩ → v.present ⟨device, id⟩)
  | serve (n : Nat) (ref : KeyRef) (key : Bytes) (hkey : v.active ref = some key)
      (href : v.present ref) (hlog : v'.log = (n, ref, key) :: v.log)
      (hactive : ∀ r, v'.active r = if r = ref then none else v.active r)
      (hpresent : ∀ r, v'.present r → v.present r)

variable {device : String} {v v' : View} {b : Nat} {ids : List UInt32} {keys : List (UInt32 × Bytes)}

theorem since_cons {α : Type} {log : List (Nat × α)} {p : Nat × α} (h : b ≤ log.length) :
    since (p :: log) b = p.2 :: since log b := by
  unfold since
  rw [length_cons, Nat.succ_sub h, take_succ_cons, map_cons]

theorem since_length {α : Type} {log : List (Nat × α)} : since log log.length = [] := by
  simp [since]

/-- The ids are free, and no key was served under them since the log had `b` entries. -/
structure Waiting (device : String) (b : Nat) (ids : List UInt32) (v : View) : Prop where
  le : b ≤ v.log.length
  free : ∀ id ∈ ids, v.present ⟨device, id⟩ = false
  unserved : ∀ id ∈ ids, ∀ key, (⟨device, id⟩, key) ∉ since v.log b

/-- The active keys are these, without those served since the log had `b` entries. -/
structure Filled (device : String) (b : Nat) (keys : List (UInt32 × Bytes)) (v : View) : Prop where
  le : b ≤ v.log.length
  active_iff : ∀ id key, v.active ⟨device, id⟩ = some key ↔
    (id, key) ∈ keys ∧ (⟨device, id⟩, key) ∉ since v.log b

theorem Waiting.step (h : Waiting device b ids v) (hst : ViewStep device v v') :
    Waiting device b ids v' := by
  cases hst with
  | quiet hl _ hpre =>
    refine ⟨hl ▸ h.le, fun id hid => ?_, fun id hid => hl ▸ h.unserved id hid⟩
    exact Bool.eq_false_iff.mpr fun hp => by simpa [h.free id hid] using hpre id hp
  | serve n ref key _ hr hl _ hpre =>
    refine ⟨?_, fun id hid => ?_, fun id hid k hk => ?_⟩
    · rw [hl]
      exact Nat.le_succ_of_le h.le
    · exact Bool.eq_false_iff.mpr fun hp => by simpa [h.free id hid] using hpre _ hp
    · rw [hl, since_cons h.le] at hk
      rcases mem_cons.mp hk with heq | hk
      · -- A key that is served has a row, and these ids have none.
        have hpr := h.free id hid
        rw [show (⟨device, id⟩ : KeyRef) = ref from congrArg Prod.fst heq, hr] at hpr
        cases hpr
      · exact h.unserved id hid k hk

theorem Filled.step (h : Filled device b keys v) (hst : ViewStep device v v') : Filled device b keys v' := by
  cases hst with
  | quiet hl ha _ =>
    refine ⟨hl ▸ h.le, fun id key => ?_⟩
    rw [ha, hl]
    exact h.active_iff id key
  | serve n ref k hke _ hl ha _ =>
    refine ⟨hl ▸ Nat.le_succ_of_le h.le, fun id key => ?_⟩
    rw [ha, hl, since_cons h.le, mem_cons, not_or]
    by_cases hr : (⟨device, id⟩ : KeyRef) = ref
    · subst hr
      rw [if_pos rfl]
      constructor
      · rintro ⟨⟩
      · rintro ⟨hm, hne, hsi⟩
        have hk := (h.active_iff id key).mpr ⟨hm, hsi⟩
        rw [hke] at hk
        cases hk
        exact absurd rfl hne
    · rw [if_neg hr, h.active_iff id key]
      have hne : ((⟨device, id⟩, key) : KeyRef × Bytes) ≠ (ref, k) :=
        fun heq => hr (congrArg Prod.fst heq)
      simp only [hne, not_false_eq_true, true_and]

theorem filled_nil (hle : b ≤ v.log.length) (h : ∀ id, v.active ⟨device, id⟩ = none) :
    Filled device b [] v :=
  ⟨hle, fun id key => by simp [h]⟩

theorem Filled.insert {id : UInt32} {key : Bytes} (h : Filled device b keys v)
    (hw : Waiting device b (id :: ids) v) (hn : id ∉ keys.map Prod.fst) (hl : v'.log = v.log)
    (ha : ∀ r, v'.active r = if r = ⟨device, id⟩ then some key else v.active r) :
    Filled device b (keys ++ [(id, key)]) v' := by
  refine ⟨hl ▸ h.le, fun id' key' => ?_⟩
  rw [ha, hl, mem_append, mem_singleton]
  by_cases hid : id' = id
  · subst hid
    rw [if_pos rfl]
    have hno : (id', key') ∉ keys := fun hm => hn (mem_map_of_mem hm)
    constructor
    · rintro ⟨⟩
      exact ⟨.inr rfl, hw.unserved id' mem_cons_self key⟩
    · rintro ⟨hm | heq, -⟩
      · exact absurd hm hno
      · rw [(Prod.mk.inj heq).2]
  · have hr : (⟨device, id'⟩ : KeyRef) ≠ ⟨device, id⟩ := fun heq => hid (KeyRef.mk.inj heq).2
    rw [if_neg hr, h.active_iff id' key']
    have hne : (id', key') ≠ (id, key) := fun heq => hid (congrArg Prod.fst heq)
    simp only [hne, or_false]

theorem Waiting.insert {id : UInt32} (hw : Waiting device b (id :: ids) v) (hno : id ∉ ids)
    (hl : v'.log = v.log)
    (hpr : ∀ r, v'.present r → r = ⟨device, id⟩ ∨ v.present r) : Waiting device b ids v' := by
  refine ⟨hl ▸ hw.le, fun id' hid' => ?_, fun id' hid' => hl ▸ hw.unserved id' (mem_cons_of_mem _ hid')⟩
  refine Bool.eq_false_iff.mpr fun hp => ?_
  rcases hpr _ hp with heq | hp
  · exact hno ((KeyRef.mk.inj heq).2 ▸ hid')
  · simp [hw.free id' (mem_cons_of_mem _ hid')] at hp

/-! ### What one statement does -/

def WritesKeysOf (allowed : String → Prop) : KeyStatement → Prop
  | .expireClassic device | .expireKyber device => allowed device
  | .insertClassic ref _ | .insertKyber ref _ _ => allowed ref.device
  | _ => True

variable {cr : Crypto} {n : Nat} {q : KeyStatement} {c : KeyCall} {s s' : KeyState}

theorem WritesKeysOf.mono {P Q : String → Prop} (hPQ : ∀ d, P d → Q d) (hq : WritesKeysOf P q) :
    WritesKeysOf Q q := by
  cases q <;> first | trivial | exact hPQ _ hq

theorem KeyEffect.viewStep (h : KeyEffect n s q s') (hq : WritesKeysOf (· ≠ device) q) :
    ViewStep device s.classicView s'.classicView ∧ ViewStep device s.kyberView s'.kyberView := by
  have hs : ∀ v : View, ViewStep device v v :=
    fun v => .quiet rfl (fun _ => rfl) fun _ => id
  cases h with
  | aside => exact ⟨hs _, hs _⟩
  | expireClassic d =>
    refine ⟨.quiet rfl (fun id => ?_) fun id => ?_, hs _⟩
    · exact activeKey_expireAll.trans (if_neg fun heq => hq heq.symm)
    · simp [KeyState.classicView, expireAll]
  | expireKyber d =>
    refine ⟨hs _, .quiet rfl (fun id => ?_) fun id => ?_⟩
    · have hne : ¬device = d := fun heq => hq heq.symm
      simp only [KeyState.kyberView, activeKey_expireAll, if_neg hne]
    · simp [KeyState.kyberView, expireAll]
  | insertClassic ref key =>
    have hne : ∀ id, (⟨device, id⟩ : KeyRef) ≠ ref := fun id heq => hq (heq ▸ rfl)
    refine ⟨.quiet rfl (fun id => ?_) fun id => ?_, hs _⟩
    · exact activeKey_insertNew.trans (if_neg fun h => hne id h.1)
    · simp [KeyState.classicView, Table.get?_insertNew_of_ne (hne id)]
  | insertKyber ref key read =>
    have hne : ∀ id, (⟨device, id⟩ : KeyRef) ≠ ref := fun id heq => hq (heq ▸ rfl)
    refine ⟨hs _, .quiet rfl (fun id => ?_) fun id => ?_⟩
    · simp only [KeyState.kyberView, activeKey_insertNew, hne, false_and, if_false]
    · simp [KeyState.kyberView, Table.get?_insertNew_of_ne (hne id)]
  | @consumeClassic d id key hk =>
    refine ⟨.serve n ⟨d, id⟩ key hk ?_ rfl (fun _ => activeKey_remove) fun r => ?_, hs _⟩
    · simp [KeyState.classicView, activeKey_eq_some_iff.mp hk]
    · simp only [KeyState.classicView, Table.get?_filter]
      exact Option.isSome_of_isSome_filter _ _
  | @consumeKyber d id key hk =>
    refine ⟨hs _, .serve n ⟨d, id⟩ key.publicKey ?_ ?_ rfl (fun r => ?_) fun r => ?_⟩
    · simp [KeyState.kyberView, hk]
    · simp [KeyState.kyberView, activeKey_eq_some_iff.mp hk]
    · simp only [KeyState.kyberView, activeKey_expireOne]
      split <;> rfl
    · simp [KeyState.kyberView]
  | deleteExpiredClassic =>
    refine ⟨.quiet rfl (fun _ => activeKey_deleteExpired) fun id => ?_, hs _⟩
    simp only [KeyState.classicView, deleteExpired, Table.get?_filter]
    exact Option.isSome_of_isSome_filter _ _
  | deleteExpiredKyber =>
    refine ⟨hs _, .quiet rfl (fun id => ?_) fun id => ?_⟩
    · simp only [KeyState.kyberView, activeKey_deleteExpired]
    · simp only [KeyState.kyberView, deleteExpired, Table.get?_filter]
      exact Option.isSome_of_isSome_filter _ _

theorem KeyEffect.replaced_eq (h : KeyEffect n s q s') : s'.replaced = s.replaced := by
  cases h <;> rfl

/-! ### Which one-time keys a call writes -/

def KeyCall.uploadsFor (device : String) : KeyCall → Bool
  | .upload _ req => req.deviceId = device
  | _ => false

section

variable {allowed : String → Prop} {authedDeviceId : String} {req : UploadRequest}

theorem writesKeysOf_of_not_writes (q : KeyStatement) (hq : q.writesKeys = false) :
    WritesKeysOf allowed q := by
  cases q <;> trivial

theorem asks_storeSignedPreKeys {signed : Option (SignedPreKey × Option Bytes)}
    {kyber : Option KyberRotation} :
    (storeSignedPreKeys cr device signed kyber).run.Asks (WritesKeysOf allowed) := by
  refine asks_next trivial fun _ => ?_
  match signed, kyber with
  | some (key, hybridSig), kyber =>
    refine asks_next trivial fun keys => ?_
    split
    · trivial
    · exact asks_then asks_check fun _ => asks_next trivial fun _ => asks_check
  | none, some rotation =>
    refine asks_next trivial fun keys => ?_
    split
    · trivial
    · exact asks_then asks_check fun _ => asks_next trivial fun _ => asks_ensure
  | none, none => exact asks_demand trivial

theorem asks_uploadHybrid : (uploadHybrid cr req).run.Asks (WritesKeysOf allowed) := by
  unfold uploadHybrid
  split
  · trivial
  · refine asks_mapErr (asks_then asks_check fun _ => asks_then asks_check fun _ => ?_)
    refine asks_next trivial fun row => ?_
    split
    · trivial
    · exact asks_then asks_check fun _ => asks_demand trivial

theorem asks_checkedKyberKeys {keys : List KyberUpload} :
    (checkedKyberKeys cr device keys).run.Asks (WritesKeysOf allowed) := by
  unfold checkedKyberKeys
  split
  · trivial
  · refine asks_next trivial fun keys => ?_
    split
    · trivial
    · exact asks_then asks_check fun _ => trivial

theorem asks_storePrekeys {preKeys : List (UInt32 × Bytes)} {replaceExisting : Bool}
    {kyber : List KyberUpload} (hde : allowed device) :
    (storePrekeys cr device preKeys replaceExisting kyber).run.Asks (WritesKeysOf allowed) := by
  have he : (expireExisting device replaceExisting).run.Asks (WritesKeysOf allowed) := by
    unfold expireExisting
    split
    · exact asks_next hde fun _ => asks_demand hde
    · trivial
  have hcl : (insertClassicKeys device preKeys).run.Asks (WritesKeysOf allowed) := by
    induction preKeys with
    | nil => trivial
    | cons p keys ih => exact asks_next hde fun _ => ih
  have hky : ∀ read, (insertKyberKeys device read kyber).run.Asks (WritesKeysOf allowed) := by
    intro read
    induction kyber with
    | nil => trivial
    | cons k ks ih => exact asks_next hde fun _ => ih
  refine asks_next trivial fun _ => asks_guard fun _ => ?_
  refine asks_then asks_checkedKyberKeys fun read => asks_then he fun _ => ?_
  refine asks_then hcl fun _ => asks_then (hky read) fun _ => ?_
  exact asks_next trivial fun _ => asks_next trivial fun _ => trivial

theorem asks_uploadPreKeys (hde : allowed req.deviceId) :
    (uploadPreKeys cr authedDeviceId req).run.Asks (WritesKeysOf allowed) := by
  refine asks_then (asks_admitUpload writesKeysOf_of_not_writes) fun _ => ?_
  refine asks_then (asks_mapErr asks_storeSignedPreKeys) fun _ => asks_then asks_uploadHybrid fun _ => ?_
  refine asks_then (asks_mapErr (asks_storePrekeys hde)) fun _ => ?_
  exact asks_then (asks_mapErr (asks_setDeviceSupportsPqRatchet writesKeysOf_of_not_writes)) fun _ => trivial

theorem asks_rotateSignedPreKey {req : RotateRequest} :
    (rotateSignedPreKey cr authedDeviceId req).run.Asks (WritesKeysOf allowed) := by
  refine asks_guard fun _ => asks_guard fun _ => ?_
  split
  · trivial
  · exact asks_guard fun _ => asks_mapErr asks_storeSignedPreKeys

theorem asks_writesKeysOf (hc : ∀ device, c.uploadsFor device = true → allowed device) :
    (keyBody cr c s).Asks (WritesKeysOf allowed) := by
  refine asks_keyBody writesKeysOf_of_not_writes ?_ ?_
  · rintro authedDeviceId req rfl
    exact asks_uploadPreKeys (hc req.deviceId (decide_eq_true rfl))
  · rintro authedDeviceId req rfl
    exact asks_rotateSignedPreKey

end

/-! ### The promises of the calls -/

/-- The active keys are exactly those of the request, without those served in the meantime. -/
def Replacement.Exact (r : Replacement) : Prop :=
  (r.preKeys.map Prod.fst).Nodup → (r.kyberPreKeys.map Prod.fst).Nodup →
    (∀ id key, activeKey r.classic ⟨r.deviceId, id⟩ = some key ↔
      (id, key) ∈ r.preKeys ∧ (⟨r.deviceId, id⟩, key) ∉ r.served) ∧
    ∀ id key,
      (activeKey r.kyber ⟨r.deviceId, id⟩).map KyberOneTimePreKey.publicKey = some key ↔
        (id, key) ∈ r.kyberPreKeys ∧ (⟨r.deviceId, id⟩, key) ∉ r.servedKyber

def KeyCall.BeginsFree (device : String) (s : KeyState) : KeyCall → Prop
  | .upload _ req => req.deviceId = device → req.replaceExisting = true →
      (∀ k ∈ req.preKeys, s.oneTimePrekeys.get? ⟨device, k.1⟩ = none) ∧
        ∀ k ∈ req.kyberPreKeys, s.kyberOneTimePreKeys.get? ⟨device, k.keyId⟩ = none
  | _ => True

instance decidableBeginsFree (device : String) (s : KeyState) :
    (c : KeyCall) → Decidable (c.BeginsFree device s) := fun c => by
  cases c <;> dsimp only [KeyCall.BeginsFree] <;> infer_instance

def KeptPools (device : String) (s s' : KeyState) : Prop :=
  Relation.ReflTransGen (ViewStep device) s.classicView s'.classicView ∧
    Relation.ReflTransGen (ViewStep device) s.kyberView s'.kyberView

/-- Uploads of the device do not overlap, and each finds the ids of its keys free. -/
def replacing (device : String) :
    Discipline KeyStatement (Input (Option UInt32)) KeyState KeyCall where
  inv s := ∀ r ∈ s.replaced, r.deviceId = device → r.Exact
  fresh _ _ := True
  rely _ c s s' := c.uploadsFor device = true → KeptPools device s s'
  begins c s := c.BeginsFree device s
  compat c c' := ¬(c.uploadsFor device = true ∧ c'.uploadsFor device = true)
  care _ _ _ _ := True
  refl _ _ _ _ := ⟨.refl, .refl⟩
  trans h h' hc := ⟨(h hc).1.trans (h' hc).1, (h hc).2.trans (h' hc).2⟩

/-- What an upload knows about the two pools: its ids that are still free, and the keys that it has
inserted, once the old ones are expired. -/
structure UploadProgress (device : String) (b bk : Nat) (ids kids : List UInt32)
    (keys kkeys : Option (List (UInt32 × Bytes))) (s : KeyState) : Prop where
  classic : Waiting device b ids s.classicView
  kyber : Waiting device bk kids s.kyberView
  filled : ∀ l ∈ keys, Filled device b l s.classicView
  filledKyber : ∀ l ∈ kkeys, Filled device bk l s.kyberView

variable {bk : Nat} {kids : List UInt32} {done kdone : Option (List (UInt32 × Bytes))}

theorem UploadProgress.kept (h : UploadProgress device b bk ids kids done kdone s)
    (hke : KeptPools device s s') : UploadProgress device b bk ids kids done kdone s' := by
  obtain ⟨hcl, hky⟩ := hke
  have hw : ∀ {b ids v v'}, Relation.ReflTransGen (ViewStep device) v v' →
      Waiting device b ids v → Waiting device b ids v' := by
    intro b ids v v' hst hv
    induction hst with
    | refl => exact hv
    | tail _ hs ih => exact ih.step hs
  have hf : ∀ {b l v v'}, Relation.ReflTransGen (ViewStep device) v v' →
      Filled device b l v → Filled device b l v' := by
    intro b l v v' hst hv
    induction hst with
    | refl => exact hv
    | tail _ hs ih => exact ih.step hs
  exact ⟨hw hcl h.classic, hw hky h.kyber, fun l hl => hf hcl (h.filled l hl),
    fun l hl => hf hky (h.filledKyber l hl)⟩

theorem KeyEffect.keptPools (h : KeyEffect n s q s') (hq : WritesKeysOf (· ≠ device) q) :
    KeptPools device s s' :=
  ⟨.single (h.viewStep hq).1, .single (h.viewStep hq).2⟩

theorem keeps_own (hc : c.uploadsFor device = true) (hinv : (replacing device).inv s)
    (h : KeyEffect n s q s') : (replacing device).Keeps n c s s' :=
  ⟨fun r hr => hinv r (h.replaced_eq ▸ hr), fun _ _ _ => trivial,
    fun _ _ _ hco hc' => absurd ⟨hc, hc'⟩ hco⟩

theorem keeps_foreign (hq : WritesKeysOf (· ≠ device) q) (hinv : (replacing device).inv s)
    (h : KeyEffect n s q s') : (replacing device).Keeps n c s s' :=
  ⟨fun r hr => hinv r (h.replaced_eq ▸ hr), fun _ _ _ => trivial,
    fun _ _ _ _ _ => h.keptPools hq⟩

/-! ### An upload of the device -/

section

variable (hc : c.uploadsFor device = true)

include hc

theorem safe_own {E : Type} {e : E} {post : KeyState → Prop}
    (hs : UploadProgress device b bk ids kids done kdone s) (he : ∀ {t t' : KeyState} {choice x},
      UploadProgress device b bk ids kids done kdone t → t.effect cr n q choice = some (x, t') → post t') :
    (replacing device).Safe (keyExec cr) n c (statement q e).run (onOk fun _ => post) s := by
  refine safe_demand fun t input r t' hinv hre hca hexe => ?_
  have ht := hs.kept (hre hc)
  cases fallible_case hexe with
  | failed => exact ⟨.refl hinv, trivial⟩
  | effect h hr =>
    refine ⟨keeps_own hc hinv (keyEffect_of_effect h), ?_⟩
    cases r with
    | none => trivial
    | some x => exact he ht h

theorem safe_aside {α E : Type} {p : Fallible KeyStatement KeyStatement.Reply E α}
    (hp : p.run.Asks (WritesKeysOf fun _ => False)) (hs : UploadProgress device b bk ids kids done kdone s) :
    (replacing device).Safe (keyExec cr) n c p.run
      (onOk fun _ => UploadProgress device b bk ids kids done kdone) s := by
  refine Discipline.safe_of_keeps (UploadProgress device b bk ids kids done kdone)
    (fun t t' ht hre => ht.kept (hre hc)) (fun q input t r t' hq hinv ht _ he => ?_)
    (fun r t ht => ?_) hp hs
  · cases fallible_case he with
    | failed => exact ⟨.refl hinv, ht⟩
    | effect h =>
      have hk := keyEffect_of_effect h
      exact ⟨keeps_own hc hinv hk, ht.kept (hk.keptPools (hq.mono fun _ => False.elim))⟩
  · cases r with
    | ok a => exact ht
    | error e => trivial

theorem safe_expireExisting (hs : UploadProgress device b bk ids kids none none s) :
    (replacing device).Safe (keyExec cr) n c (expireExisting device true).run
      (onOk fun _ => UploadProgress device b bk ids kids (some []) (some [])) s := by
  refine safe_then (fun _ => UploadProgress device b bk ids kids (some []) none)
    (safe_own hc hs fun {t t' _ _} ht h => ?_) fun _ t ht => ?_
  · cases h
    refine ⟨⟨ht.classic.le, ?_, ht.classic.unserved⟩, ht.kyber, ?_, nofun⟩
    · simpa [KeyState.classicView, expireAll] using ht.classic.free
    · rintro l ⟨⟩
      exact filled_nil ht.classic.le fun id => activeKey_expireAll.trans (if_pos rfl)
  · refine safe_own hc ht fun {u u' _ _} hu h => ?_
    cases h
    refine ⟨hu.classic, ⟨hu.kyber.le, ?_, hu.kyber.unserved⟩, hu.filled, ?_⟩
    · simpa [KeyState.kyberView, expireAll] using hu.kyber.free
    · rintro l ⟨⟩
      refine filled_nil hu.kyber.le fun id => ?_
      simp [KeyState.kyberView, activeKey_expireAll]

theorem safe_insertClassicKeys {keys done : List (UInt32 × Bytes)}
    (hno : ((done ++ keys).map Prod.fst).Nodup)
    (hs : UploadProgress device b bk (keys.map Prod.fst) kids (some done) kdone s) :
    (replacing device).Safe (keyExec cr) n c (insertClassicKeys device keys).run
      (onOk fun _ => UploadProgress device b bk [] kids (some (done ++ keys)) kdone) s := by
  induction keys generalizing done s with
  | nil =>
    rw [append_nil]
    exact hs
  | cons p keys ih =>
    obtain ⟨id, key⟩ := p
    rw [append_cons] at hno ⊢
    refine safe_then (fun _ => UploadProgress device b bk (keys.map Prod.fst) kids
      (some (done ++ [(id, key)])) kdone) (safe_own hc hs fun {t t' _ _} ht h => ?_)
      fun _ t ht => ih hno ht
    cases h
    simp only [map_append, map_cons, map_nil, append_assoc] at hno
    obtain ⟨-, hke, hdi⟩ := nodup_append.mp hno
    have hf : t.oneTimePrekeys.get? ⟨device, id⟩ = none :=
      Option.not_isSome_iff_eq_none.mp (Bool.eq_false_iff.mp (ht.classic.free id mem_cons_self))
    refine ⟨ht.classic.insert (nodup_cons.mp hke).1 rfl fun r hr => ?_, ht.kyber, ?_, ht.filledKyber⟩
    · by_cases hne : r = ⟨device, id⟩
      · exact .inl hne
      · exact .inr (by simpa [KeyState.classicView, Table.get?_insertNew_of_ne hne] using hr)
    · rintro l ⟨⟩
      refine (ht.filled done rfl).insert ht.classic ?_ rfl fun r => ?_
      · exact fun hm => hdi id hm id mem_cons_self rfl
      · simp only [KeyState.classicView, activeKey_insertNew, hf, and_true]

theorem safe_insertKyberKeys {keys : List KyberUpload} {read : Option Bytes} {done : List (UInt32 × Bytes)}
    (hno : ((done ++ keys.map fun k => (k.keyId, k.publicKey)).map Prod.fst).Nodup)
    (hs : UploadProgress device b bk ids (keys.map KyberUpload.keyId) kdone (some done) s) :
    (replacing device).Safe (keyExec cr) n c (insertKyberKeys device read keys).run
      (onOk fun _ => UploadProgress device b bk ids [] kdone
        (some (done ++ keys.map fun k => (k.keyId, k.publicKey)))) s := by
  induction keys generalizing done s with
  | nil =>
    rw [map_nil, append_nil]
    exact hs
  | cons k keys ih =>
    rw [map_cons, append_cons] at hno ⊢
    refine safe_then (fun _ => UploadProgress device b bk ids (keys.map KyberUpload.keyId) kdone
      (some (done ++ [(k.keyId, k.publicKey)]))) (safe_own hc hs fun {t t' _ _} ht h => ?_)
      fun _ t ht => ih hno ht
    cases h
    simp only [map_append, map_cons, map_nil, append_assoc, map_map] at hno
    obtain ⟨-, hke, hdi⟩ := nodup_append.mp hno
    have hf : t.kyberOneTimePreKeys.get? ⟨device, k.keyId⟩ = none :=
      Option.not_isSome_iff_eq_none.mp
        (Bool.eq_false_iff.mp (ht.kyber.free k.keyId mem_cons_self))
    refine ⟨ht.classic, ht.kyber.insert (nodup_cons.mp hke).1 rfl fun r hr => ?_, ht.filled, ?_⟩
    · by_cases hne : r = ⟨device, k.keyId⟩
      · exact .inl hne
      · exact .inr (by simpa [KeyState.kyberView, Table.get?_insertNew_of_ne hne] using hr)
    · rintro l ⟨⟩
      refine (ht.filledKyber done rfl).insert ht.kyber ?_ rfl fun r => ?_
      · exact fun hm => hdi k.keyId hm k.keyId mem_cons_self rfl
      · simp only [KeyState.kyberView, activeKey_insertNew, hf, and_true]
        split <;> rfl

theorem safe_storePrekeys {preKeys : List (UInt32 × Bytes)} {kyber : List KyberUpload}
    (hcl : (preKeys.map Prod.fst).Nodup) (hky : (kyber.map KyberUpload.keyId).Nodup)
    (hs : UploadProgress device b bk (preKeys.map Prod.fst) (kyber.map KyberUpload.keyId) none none s) :
    (replacing device).Safe (keyExec cr) n c (storePrekeys cr device preKeys true kyber).run
      (onOk fun _ => UploadProgress device b bk [] [] (some preKeys)
        (some (kyber.map fun k => (k.keyId, k.publicKey)))) s := by
  refine safe_then _ (safe_aside hc (asks_demand trivial) hs) fun _ t ht => ?_
  refine safe_then _ (safe_aside hc asks_ensure ht) fun _ t ht => ?_
  refine safe_then _ (safe_aside hc asks_checkedKyberKeys ht) fun read t ht => ?_
  refine safe_then _ (safe_expireExisting hc ht) fun _ t ht => ?_
  refine safe_then _ (safe_insertClassicKeys hc (by rwa [nil_append]) ht) fun _ t ht => ?_
  refine safe_then _ (safe_insertKyberKeys hc ?_ ht) fun _ t ht => ?_
  · rwa [nil_append, map_map]
  refine safe_then _ (safe_aside hc (asks_demand trivial) ht) fun _ t ht => ?_
  exact safe_then _ (safe_aside hc (asks_demand trivial) ht) fun _ t ht => ht

theorem safe_uploadPreKeys {authedDeviceId : String} {req : UploadRequest}
    (hre : req.replaceExisting = true) (hde : req.deviceId = device) (hcl : (req.preKeys.map Prod.fst).Nodup)
    (hky : (req.kyberPreKeys.map KyberUpload.keyId).Nodup)
    (hs : UploadProgress device b bk (req.preKeys.map Prod.fst) (req.kyberPreKeys.map KyberUpload.keyId)
      none none s) : (replacing device).Safe (keyExec cr) n c (uploadPreKeys cr authedDeviceId req).run
      (onOk fun _ => UploadProgress device b bk [] [] (some req.preKeys)
        (some (req.kyberPreKeys.map fun k => (k.keyId, k.publicKey)))) s := by
  refine safe_then _ (safe_aside hc (asks_admitUpload writesKeysOf_of_not_writes) hs) fun _ t ht => ?_
  refine safe_then _ (safe_aside hc (asks_mapErr asks_storeSignedPreKeys) ht) fun _ t ht => ?_
  refine safe_then _ (safe_aside hc asks_uploadHybrid ht) fun _ t ht => ?_
  rw [hre, hde]
  refine safe_then _ (safe_mapErr (safe_storePrekeys hc hcl hky ht)) fun _ t ht => ?_
  refine safe_then _ (safe_aside hc (asks_mapErr (asks_setDeviceSupportsPqRatchet writesKeysOf_of_not_writes)) ht) fun _ t ht => ?_
  exact ht

end

theorem ends_of_exact {a : KeyAnswer}
    (h : ∀ r ∈ (keyFinish n c a s).replaced, r ∈ s.replaced ∨ (r.deviceId = device → r.Exact)) :
    (replacing device).Ends keyFinish n c a s := by
  intro hinv
  refine ⟨fun r hr hde => ?_, fun _ _ _ => trivial, fun _ _ _ _ _ => ?_⟩
  · rcases h r hr with ho | hn
    · exact hinv r ho hde
    · exact hn hde
  · have hvi : (keyFinish n c a s).classicView = s.classicView ∧
        (keyFinish n c a s).kyberView = s.kyberView := by
      unfold keyFinish
      split
      · exact ⟨rfl, rfl⟩
      · split <;> exact ⟨rfl, rfl⟩
      · exact ⟨rfl, rfl⟩
    rw [KeptPools, hvi.1, hvi.2]
    exact ⟨.refl, .refl⟩

theorem safe_of_ends {P : KeyStatement → Prop} {p : Program KeyStatement (fun q => Option q.Reply) KeyAnswer}
    (hke : ∀ {q s s'}, P q → (replacing device).inv s → KeyEffect n s q s' →
      (replacing device).Keeps n c s s') (hp : p.Asks P) (hen : ∀ a s, (replacing device).Ends keyFinish n c a s) :
    (replacing device).Safe (keyExec cr) n c p ((replacing device).Ends keyFinish n c) s := by
  refine Discipline.safe_of_keeps (fun _ => True) (fun _ _ _ _ => trivial)
    (fun q input t r t' hq hinv _ _ he => ?_) (fun a t _ => hen a t) hp trivial
  cases fallible_case he with
  | failed => exact ⟨.refl hinv, trivial⟩
  | effect h => exact ⟨hke hq hinv (keyEffect_of_effect h), trivial⟩

variable {authedDeviceId : String} {req : UploadRequest}

theorem ends_uploaded_exact (hde : req.deviceId = device)
    (hs : UploadProgress device b bk [] [] (some req.preKeys)
      (some (req.kyberPreKeys.map fun k => (k.keyId, k.publicKey))) s) :
    (replacing device).Ends keyFinish n (.upload authedDeviceId req) (.uploaded b bk) s := by
  refine ends_of_exact fun r hr => ?_
  simp only [keyFinish] at hr
  split at hr
  · rcases mem_cons.mp hr with rfl | hr
    · refine .inr fun _ _ _ => ?_
      simp only [hde]
      exact ⟨(hs.filled _ rfl).active_iff, (hs.filledKyber _ rfl).active_iff⟩
    · exact .inl hr
  · exact .inl hr

theorem uploadProgress_of_beginsFree (hde : req.deviceId = device) (hre : req.replaceExisting = true)
    (hbe : (KeyCall.upload authedDeviceId req).BeginsFree device s) :
    UploadProgress device s.served.length s.servedKyber.length (req.preKeys.map Prod.fst)
      (req.kyberPreKeys.map KyberUpload.keyId) none none s := by
  obtain ⟨hcl, hky⟩ := hbe hde hre
  refine ⟨⟨Nat.le_refl _, fun id hid => ?_, fun id hid key => ?_⟩,
    ⟨Nat.le_refl _, fun id hid => ?_, fun id hid key => ?_⟩, nofun, nofun⟩
  · obtain ⟨k, hk, rfl⟩ := mem_map.mp hid
    simp [KeyState.classicView, hcl k hk]
  · simp [KeyState.classicView, since_length]
  · obtain ⟨k, hk, rfl⟩ := mem_map.mp hid
    simp [KeyState.kyberView, hky k hk]
  · simp [KeyState.kyberView, since_length]

theorem safe_upload (hde : req.deviceId = device)
    (hbe : (KeyCall.upload authedDeviceId req).BeginsFree device s) :
    (replacing device).Safe (keyExec cr) n (.upload authedDeviceId req)
    (keyBody cr (.upload authedDeviceId req) s)
      ((replacing device).Ends keyFinish n (.upload authedDeviceId req)) s := by
  have hc : (KeyCall.upload authedDeviceId req).uploadsFor device = true := decide_eq_true hde
  by_cases he : req.replaceExisting = true ∧ (req.preKeys.map Prod.fst).Nodup ∧
      (req.kyberPreKeys.map KyberUpload.keyId).Nodup
  · obtain ⟨hre, hcl, hky⟩ := he
    refine Discipline.safe_bind.mpr ((safe_uploadPreKeys hc hre hde hcl hky
      (uploadProgress_of_beginsFree hde hre hbe)).mono fun r t ht => ?_)
    cases r with
    | ok a => exact ends_uploaded_exact hde ht
    | error e => exact ends_of_exact fun r hr => .inl hr
  · -- Nothing is promised about the other uploads.
    refine safe_of_ends (fun _ => keeps_own hc) (Program.asks_true _) fun a t => ?_
    refine ends_of_exact fun r hr => ?_
    unfold keyFinish at hr
    split at hr
    · exact .inl hr
    · rename_i heq
      cases heq
      split at hr
      · rename_i hre
        rcases mem_cons.mp hr with rfl | hr
        · refine .inr fun _ hcl hky => absurd ⟨hre, hcl, ?_⟩ he
          rwa [map_map] at hky
        · exact .inl hr
      · exact .inl hr
    · exact .inl hr

theorem safe_keyBody_replacing (hbe : c.BeginsFree device s) :
    (replacing device).Safe (keyExec cr) n c (keyBody cr c s) ((replacing device).Ends keyFinish n c) s := by
  cases hc : c.uploadsFor device with
  | true =>
    cases c with
    | upload authedDeviceId req => exact safe_upload (of_decide_eq_true hc) hbe
    | _ => cases hc
  | false =>
    refine safe_of_ends (fun hq => keeps_foreign hq) (asks_writesKeysOf fun d hd => ?_) fun a t => ?_
    · rintro rfl
      rw [hc] at hd
      cases hd
    · refine ends_of_exact fun r hr => ?_
      unfold keyFinish at hr
      split at hr
      · exact .inl hr
      · split at hr
        · rcases mem_cons.mp hr with rfl | hr
          · exact .inr fun hde => absurd hde (of_decide_eq_false hc)
          · exact .inl hr
        · exact .inl hr
      · exact .inl hr

attribute [reducible] replacing

/-- After a successful replacing upload the active keys are exactly those of the request, without
those served in the meantime, if the device had no row under their ids when the upload began. -/
theorem replacing_upload_exact (cr : Crypto) (device : String) {s : KeyState} (hnew : s.replaced = [])
    {as : List KeyAction} {pool : KeyPool}
    (hcareful : Along (keyStep cr) (replacing device).Careful (.init s) as)
    (hrun : run (keyStep cr) (.init s) as = some pool) :
    ∀ r ∈ pool.store.replaced, r.deviceId = device → r.Exact := by
  refine key_run_invariant (fun n c t _ _ hbegins => safe_keyBody_replacing hbegins)
    (fun seconds t hinv => ⟨hinv, fun _ _ => trivial, fun _ _ _ => ⟨.refl, .refl⟩⟩)
    ?_ (fun _ => trivial) hcareful hrun
  rintro r hr
  rw [hnew] at hr
  cases hr

def replaceTwice (first second : UInt32 × Bytes) : List KeyAction :=
  [first, second].flatMap fun key =>
    keyCall (.upload "d" (demoUpload [key] true)) (List.replicate 13 none)

/-- The second upload has a new id, and its key is the only active one. -/
theorem replacing_upload_exact_demo :
    ∃ pool, run (keyStep demoCrypto) (.init demoKeys) (replaceTwice (1, [7]) (2, [8])) = some pool ∧
      activeKey pool.store.oneTimePrekeys ⟨"d", 2⟩ = some [8] ∧
      ∀ r ∈ pool.store.replaced, r.deviceId = "d" → r.Exact :=
  reaches_with (by decide +kernel) fun _ hrun _ => replacing_upload_exact demoCrypto "d" rfl (by decide +kernel) hrun

/-- The second upload uses the id of a key that the first one had stored. The expired row still has
the id, so the new key is skipped, and the upload that answers success leaves no active key. -/
theorem replacing_upload_skips :
    ∃ pool, run (keyStep demoCrypto) (.init demoKeys) (replaceTwice (1, [7]) (1, [8])) = some pool ∧
      ∃ r ∈ pool.store.replaced, r.deviceId = "d" ∧ r.preKeys = [(1, [8])] ∧ r.served = [] ∧
        activeKey r.classic ⟨"d", 1⟩ = none ∧ ¬r.Exact := by
  obtain ⟨pool, hrun, r, hr, hdevice, hkeys, hkyber, hserved, hactive⟩ := reaches (keyStep demoCrypto)
    (.init demoKeys) (replaceTwice (1, [7]) (1, [8])) (fun pool => ∃ r ∈ pool.store.replaced, r.deviceId = "d" ∧
    r.preKeys = [(1, [8])] ∧ r.kyberPreKeys = [] ∧ r.served = [] ∧ activeKey r.classic ⟨"d", 1⟩ = none)
    (by decide +kernel)
  refine ⟨pool, hrun, r, hr, hdevice, hkeys, hserved, hactive, fun h => ?_⟩
  have hexact := (h (by rw [hkeys]; decide) (by rw [hkyber]; decide)).1 1 [8]
  rw [hdevice, hactive, hkeys, hserved] at hexact
  exact absurd (hexact.mpr ⟨mem_singleton.mpr rfl, not_mem_nil⟩) nofun

end ConstructServer.KeyService
