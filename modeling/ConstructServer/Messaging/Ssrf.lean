import Mathlib.Algebra.Order.Ring.Nat
import ConstructServer.RateLimit.Buckets

/-!
# Where a federation fetch may connect to

The addresses of a peer's name are checked one by one. An IPv6 address is taken apart only if it is
IPv4-mapped; other ways to carry an IPv4 address are not looked into.
-/

namespace ConstructServer.Messaging.Ssrf

open RateLimit (IpAddr toIpv4Mapped)

def octet (a : BitVec 32) (i : Nat) : Nat := a.toNat / 256 ^ (3 - i) % 256

def segment (a : BitVec 128) (i : Nat) : Nat := a.toNat / 65536 ^ (7 - i) % 65536

/-- The ranges of `is_public_v4`: those of the standard library, then its own. -/
def isPublicV4 (a : BitVec 32) : Bool :=
  let o := octet a
  !(o 0 == 10 || (o 0 == 172 && 16 ≤ o 1 && o 1 ≤ 31) || (o 0 == 192 && o 1 == 168) || o 0 == 127 ||
    (o 0 == 169 && o 1 == 254) || a == 0xffffffff || (o 0 == 192 && o 1 == 0 && o 2 == 2) ||
    (o 0 == 198 && o 1 == 51 && o 2 == 100) || (o 0 == 203 && o 1 == 0 && o 2 == 113) || a == 0 ||
    (224 ≤ o 0 && o 0 ≤ 239) || (o 0 == 100 && o 1 &&& 0xc0 == 64) ||
    (o 0 == 198 && (o 1 == 18 || o 1 == 19)) || (o 0 == 192 && o 1 == 0 && o 2 == 0))

def isPublicV6 (a : BitVec 128) : Bool :=
  let s := segment a
  if a == 1 || a == 0 || s 0 / 256 == 0xff || s 0 &&& 0xffc0 == 0xfe80 || s 0 &&& 0xfe00 == 0xfc00 then false
  else match toIpv4Mapped a with
    | some v4 => isPublicV4 v4
    | none => !(s 0 == 0x0100 && s 1 == 0 && s 2 == 0 && s 3 == 0)

def isPublicIp : IpAddr → Bool
  | .v4 a => isPublicV4 a
  | .v6 a => isPublicV6 a

/-- `assert_hostname_resolves_public`, whatever names are refused before and whatever the resolver
answers; `text` prints an address. -/
def assertHostnameResolvesPublic (validate : String → Except String Unit)
    (resolve : String → Except String (List IpAddr)) (text : IpAddr → String)
    (domain : String) : Except String Unit := do
  validate domain
  let addrs ← (resolve domain).mapError ("DNS resolution failed: " ++ ·)
  match addrs.find? fun ip => !isPublicIp ip with
  | some ip => throw ("domain resolves to non-public address " ++ text ip ++ " (SSRF blocked)")
  | none => if addrs = [] then throw "DNS resolution returned no addresses" else pure ()

/-! ### What is internal -/

/-- Private, loopback, link-local, shared and unspecified addresses, by their ranges. -/
def Internal (n : Nat) : Prop :=
  n / 2 ^ 24 = 10 ∨ n / 2 ^ 20 = 172 * 16 + 1 ∨ n / 2 ^ 16 = 192 * 256 + 168 ∨ n / 2 ^ 24 = 127 ∨
    n / 2 ^ 16 = 169 * 256 + 254 ∨ n / 2 ^ 22 = 100 * 4 + 1 ∨ n = 0

/-- An internal IPv4 address in an IPv4-compatible address, behind the NAT64 prefix or in 6to4. -/
def Tunnels (n : Nat) : Prop :=
  n / 2 ^ 32 = 0 ∧ Internal n ∨ n / 2 ^ 32 = 0x64ff9b * 2 ^ 64 ∧ Internal (n % 2 ^ 32) ∨
    n / 2 ^ 112 = 0x2002 ∧ Internal (n / 2 ^ 80 % 2 ^ 32)

/-- What a fetch must not reach. -/
def Forbidden : IpAddr → Prop
  | .v4 a => Internal a.toNat
  | .v6 a => a.toNat ≤ 1 ∨ a.toNat / 2 ^ 118 = 0xfe80 / 64 ∨ a.toNat / 2 ^ 121 = 0xfc00 / 512 ∨
      a.toNat / 2 ^ 32 = 0xffff ∧ Internal (a.toNat % 2 ^ 32) ∨ Tunnels a.toNat

theorem octet_eq {a : BitVec 32} : octet a 0 = a.toNat / 2 ^ 24 ∧ octet a 1 = a.toNat / 2 ^ 16 % 256 := by
  have hlt : a.toNat < 2 ^ 32 := a.isLt
  simp only [octet]
  omega

theorem isPublicV4_of_internal {a : BitVec 32} (h : Internal a.toNat) : isPublicV4 a = false := by
  have hlt : a.toNat < 2 ^ 32 := a.isLt
  obtain ⟨h0, h1⟩ := @octet_eq a
  rcases h with h | h | h | h | h | h | h
  · simp [isPublicV4, show octet a 0 = 10 by omega]
  · simp [isPublicV4, show octet a 0 = 172 by omega, show 16 ≤ octet a 1 by omega, show octet a 1 ≤ 31 by omega]
  · simp [isPublicV4, show octet a 0 = 192 by omega, show octet a 1 = 168 by omega]
  · simp [isPublicV4, show octet a 0 = 127 by omega]
  · simp [isPublicV4, show octet a 0 = 169 by omega, show octet a 1 = 254 by omega]
  · have hcg : ∀ x : Fin 64, (64 + x.val) &&& 0xc0 = 64 := by decide
    have hma := hcg ⟨octet a 1 - 64, by omega⟩
    rw [show 64 + (octet a 1 - 64) = octet a 1 by omega] at hma
    simp [isPublicV4, show octet a 0 = 100 by omega, hma]
  · simp [isPublicV4, show a = 0 from BitVec.eq_of_toNat_eq h]

theorem isPublicV6_of_forbidden {a : BitVec 128} (h : Forbidden (.v6 a)) : isPublicV6 a = false ∨
    Tunnels a.toNat := by
  have hlt : a.toNat < 2 ^ 128 := a.isLt
  have hs : segment a 0 = a.toNat / 2 ^ 112 := by
    simp only [segment]
    omega
  rcases h with h | h | h | ⟨hm, h⟩ | h
  · have ha : a = 0 ∨ a = 1 := (Nat.le_one_iff_eq_zero_or_eq_one.mp h).imp BitVec.eq_of_toNat_eq BitVec.eq_of_toNat_eq
    rcases ha with rfl | rfl <;> exact .inl (by decide)
  · have hma : ∀ x : Fin 64, (0xfe80 + x.val) &&& 0xffc0 = 0xfe80 := by decide
    have hx := hma ⟨segment a 0 - 0xfe80, by omega⟩
    rw [show 0xfe80 + (segment a 0 - 0xfe80) = segment a 0 by omega] at hx
    exact .inl (by simp [isPublicV6, hx])
  · have hma : ∀ x : Fin 512, (0xfc00 + x.val) &&& 0xfe00 = 0xfc00 := by decide +kernel
    have hx := hma ⟨segment a 0 - 0xfc00, by omega⟩
    rw [show 0xfc00 + (segment a 0 - 0xfc00) = segment a 0 by omega] at hx
    exact .inl (by simp [isPublicV6, hx])
  · have hma : toIpv4Mapped a = some (a.truncate 32) := by
      have hsh : a >>> 32 = 0xffff#128 := BitVec.eq_of_toNat_eq (by simpa [Nat.shiftRight_eq_div_pow] using hm)
      simp [toIpv4Mapped, hsh]
    have hpu : isPublicV4 (a.truncate 32) = false := isPublicV4_of_internal (by simpa using h)
    left
    unfold isPublicV6
    simp only [hma, hpu]
    split <;> rfl
  · exact .inr h

variable {validate : String → Except String Unit} {resolve : String → Except String (List IpAddr)}
  {text : IpAddr → String}
  {domain : String} {addrs : List IpAddr}

/-- An accepted name has no forbidden address exactly when none of its addresses tunnels one. -/
theorem resolved_addresses_external_iff (hre : resolve domain = .ok addrs)
    (hok : assertHostnameResolvesPublic validate resolve text domain = .ok ()) :
    (∀ ip ∈ addrs, ¬ Forbidden ip) ↔ ∀ a, .v6 a ∈ addrs → ¬ Tunnels a.toNat := by
  have hpu : ∀ ip ∈ addrs, isPublicIp ip := by
    cases hva : validate domain with
    | error e =>
      simp only [assertHostnameResolvesPublic, hva] at hok
      cases hok
    | ok u =>
      cases hfi : addrs.find? fun ip => !isPublicIp ip with
      | some ip =>
        simp only [assertHostnameResolvesPublic, hva, hre, Except.mapError, bind, Except.bind, hfi] at hok
        cases hok
      | none => simpa using hfi
  constructor
  · exact fun h a ha ht => h _ ha (.inr (.inr (.inr (.inr ht))))
  · intro h ip hip hfo
    have hip' := hpu ip hip
    cases ip with
    | v4 a => simp [isPublicIp, isPublicV4_of_internal hfo] at hip'
    | v6 a =>
      rcases isPublicV6_of_forbidden hfo with hno | htu
      · simp [isPublicIp, hno] at hip'
      · exact h a hip htu

/-- A name that resolves to `64:ff9b::10.0.0.1` is accepted. -/
theorem tunnelled_address_accepted :
    (assertHostnameResolvesPublic (fun _ => .ok ()) (fun _ => .ok [.v6 0x64ff9b00000000000000000a000001])
      (fun _ => "") "peer.example").isOk ∧ Forbidden (.v6 0x64ff9b00000000000000000a000001) := by
  refine ⟨by decide +kernel, .inr (.inr (.inr (.inr (.inr (.inl ⟨by decide, .inl (by decide)⟩)))))⟩

/-- Both addresses of a name with an IPv4 and an IPv6 address are external. -/
theorem public_address_accepted :
    ¬Forbidden (.v4 0x08080808) ∧ ¬Forbidden (.v6 0x26064700470000000000000000001111) := by
  have h := (@resolved_addresses_external_iff (fun _ => .ok ())
    (fun _ => .ok [.v4 0x08080808, .v6 0x26064700470000000000000000001111]) (fun _ => "")
    "peer.example" _ rfl (by decide +kernel)).mpr fun a ha => by
      obtain rfl : a = 0x26064700470000000000000000001111 := by simpa using ha
      simp [Tunnels]
  exact ⟨h _ (by simp), h _ (by simp)⟩

end ConstructServer.Messaging.Ssrf
