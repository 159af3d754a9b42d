import ConstructServer.Queue.Envelope

/-!
# Encrypted push tokens

A stored token names the version of its key in front of the nonce and the ciphertext. The format
without a version, which `decrypt` documents, is read as if its first nonce byte were one.
-/

namespace ConstructServer.Notification

open List

open Queue (Bytes utf8 utf8_injective validateUTF8_utf8)

/-- ChaCha20-Poly1305: it decrypts what it encrypted, and nothing else. -/
structure Aead where
  encrypt : (key nonce plaintext : Bytes) → Bytes
  decrypt : (key nonce ciphertext : Bytes) → Option Bytes
  length_encrypt : ∀ k n p, (encrypt k n p).length = p.length + 16
  decrypt_eq_some_iff : ∀ k n c p, decrypt k n c = some p ↔ c = encrypt k n p

inductive EncryptionError
  | tooShort (length : Nat)
  | unknownVersion (version : UInt8)
  | decryptionFailed (version : UInt8)
  | notUtf8

/-- The keys by version; the current one is among them. -/
structure DeviceTokenEncryption where
  keys : UInt8 → Option Bytes
  currentVersion : UInt8
  current : Bytes
  keys_current : keys currentVersion = some current

/-- The documented layouts of a stored token. -/
inductive Format
  | versioned
  | legacy
deriving DecidableEq

def Format.store (aead : Aead) (version : UInt8) (key nonce : Bytes) (token : String) : Format → Bytes
  | .versioned => version :: (nonce ++ aead.encrypt key nonce (utf8 token))
  | .legacy => nonce ++ aead.encrypt key nonce (utf8 token)

namespace DeviceTokenEncryption

variable (aead : Aead) (e : DeviceTokenEncryption)

def encrypt (nonce : Bytes) (token : String) : Bytes :=
  Format.versioned.store aead e.currentVersion e.current nonce token

def decrypt (data : Bytes) : Except EncryptionError String :=
  if data.length < 29 then .error (.tooShort data.length)
  else
    let version := data.headD 0
    match e.keys version with
    | none => .error (.unknownVersion version)
    | some key =>
      match aead.decrypt key (data.tail.take 12) (data.tail.drop 12) with
      | none => .error (.decryptionFailed version)
      | some plaintext => (String.fromUTF8? ⟨plaintext.toArray⟩).elim (.error .notUtf8) .ok

def reencrypt (nonce data : Bytes) : Except EncryptionError Bytes :=
  (e.decrypt aead data).map (e.encrypt aead nonce)

end DeviceTokenEncryption

variable {aead : Aead} {e : DeviceTokenEncryption} {token : String}

theorem fromUTF8?_eq_some_iff {p : Bytes} : String.fromUTF8? ⟨p.toArray⟩ = some token ↔ p = utf8 token := by
  unfold String.fromUTF8?
  constructor
  · intro h
    split at h
    · obtain rfl := Option.some.inj h
      simp [utf8, String.toUTF8, String.fromUTF8]
    · cases h
  · rintro rfl
    rw [dif_pos (ByteArray.validateUTF8_eq_true_iff.mp (validateUTF8_utf8 token))]
    simp [String.fromUTF8, utf8, String.toUTF8]

theorem decrypt_eq_ok_iff {data : Bytes} : e.decrypt aead data = .ok token ↔
    ∃ version key nonce, e.keys version = some key ∧ nonce.length = 12 ∧
      data = Format.versioned.store aead version key nonce token := by
  constructor
  · intro h
    rcases data with _ | ⟨version, rest⟩
    · cases h
    unfold DeviceTokenEncryption.decrypt at h
    split_ifs at h with hl
    cases hk : e.keys version with
    | none => simp [hk] at h
    | some key =>
      cases hp : aead.decrypt key (rest.take 12) (rest.drop 12) with
      | none => simp [hk, hp] at h
      | some p =>
        cases ht : String.fromUTF8? ⟨p.toArray⟩ with
        | none => simp [hk, hp, ht] at h
        | some t =>
          simp only [headD_cons, hk, tail_cons, hp, ht, Option.elim_some, Except.ok.injEq] at h
          subst h
          rw [fromUTF8?_eq_some_iff] at ht
          rw [aead.decrypt_eq_some_iff, ht] at hp
          refine ⟨version, key, rest.take 12, hk, ?_, ?_⟩
          · simp only [length_cons, length_take] at hl ⊢
            omega
          · rw [Format.store, ← hp, take_append_drop]
  · rintro ⟨version, key, nonce, hk, hn, rfl⟩
    have hl : ¬ (Format.versioned.store aead version key nonce token).length < 29 := by
      simp only [Format.store, length_cons, length_append, hn, aead.length_encrypt]
      omega
    have hd : aead.decrypt key nonce (aead.encrypt key nonce (utf8 token)) = some (utf8 token) :=
      (aead.decrypt_eq_some_iff ..).mpr rfl
    simp only [DeviceTokenEncryption.decrypt, hl, if_false]
    simp only [Format.store, headD_cons, hk, tail_cons, take_left' hn, drop_left' hn, hd,
      fromUTF8?_eq_some_iff.mpr rfl, Option.elim_some]

theorem decrypt_legacy_ne {key nonce : Bytes} (hn : nonce.length = 12) (version : UInt8) :
    e.decrypt aead (Format.legacy.store aead version key nonce token) ≠ .ok token := by
  intro h
  obtain ⟨v, k, n, -, hn', heq⟩ := decrypt_eq_ok_iff.mp h
  have hl := congrArg List.length heq
  simp only [Format.store, length_cons, length_append, hn, hn', aead.length_encrypt] at hl
  omega

/-- A stored token survives every sequence of key sets that keep its key, and a re-encryption by any
of them, exactly when it is stored with its version. -/
theorem tokens_survive_rotation_iff (format : Format) {version : UInt8} {key nonce : Bytes}
    (hn : nonce.length = 12)
    {sets : List DeviceTokenEncryption} (hkeep : ∀ e ∈ sets, e.keys version = some key) :
    ∀ e ∈ sets, (e.decrypt aead (format.store aead version key nonce token) = .ok token ↔ format = .versioned) ∧
      ∀ (fresh : Bytes) (later : DeviceTokenEncryption), fresh.length = 12 →
        later.keys e.currentVersion = some e.current →
        ((∃ data, e.reencrypt aead fresh (format.store aead version key nonce token) = .ok data ∧
          later.decrypt aead data = .ok token) ↔ format = .versioned) := by
  intro e he
  have hde : e.decrypt aead (format.store aead version key nonce token) = .ok token ↔ format = .versioned := by
    cases format with
    | versioned => exact ⟨fun _ => rfl, fun _ => decrypt_eq_ok_iff.mpr ⟨version, key, nonce, hkeep e he, hn, rfl⟩⟩
    | legacy => exact ⟨fun h => absurd h (decrypt_legacy_ne hn version), fun h => absurd h (by decide)⟩
  refine ⟨hde, fun fresh later hf hla => ?_⟩
  rw [← hde]
  have hre : ∀ t, later.decrypt aead (e.encrypt aead fresh t) = .ok t :=
    fun t => decrypt_eq_ok_iff.mpr ⟨_, _, fresh, hla, hf, rfl⟩
  unfold DeviceTokenEncryption.reencrypt
  cases hd : e.decrypt aead (format.store aead version key nonce token) with
  | error err => simp [Except.map]
  | ok t =>
    simp only [Except.map, Except.ok.injEq, exists_eq_left', hre]

def tagging : Aead where
  encrypt k n p := p ++ replicate 16 (k.headD 0 + n.headD 0)
  decrypt k n c :=
    if c.drop (c.length - 16) = replicate 16 (k.headD 0 + n.headD 0) then some (c.take (c.length - 16)) else none
  length_encrypt k n p := by simp
  decrypt_eq_some_iff k n c p := by
    constructor
    · intro h
      split_ifs at h with hd
      rw [← hd, ← Option.some.inj h, take_append_drop]
    · rintro rfl
      simp

def onlyKey : DeviceTokenEncryption := ⟨fun v => if v = 1 then some [7] else none, 1, [7], rfl⟩

/-- A token of the legacy layout is not read back with its key. -/
theorem legacy_token_is_lost :
    onlyKey.decrypt tagging (Format.legacy.store tagging 1 [7] (replicate 12 0) "token") ≠ .ok "token" :=
  decrypt_legacy_ne rfl 1

theorem versioned_token_survives :
    onlyKey.decrypt tagging (Format.versioned.store tagging 1 [7] (replicate 12 0) "token") = .ok "token" := by
  have hkeep : ∀ e ∈ [onlyKey], e.keys 1 = some [7] := fun e he => mem_singleton.mp he ▸ rfl
  exact (tokens_survive_rotation_iff .versioned rfl hkeep onlyKey (mem_singleton_self _)).1.mpr rfl

end ConstructServer.Notification
