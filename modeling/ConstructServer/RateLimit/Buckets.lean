import ConstructServer.Library.Decimal

/-!
# Rate buckets of client addresses

A limit for each client address counts an IPv4 address by itself and an IPv6 address by its `/64`.
The address comes as text, with brackets, a port or a zone around it; an IPv4-mapped address counts
as the IPv4 address that it carries. Texts that do not parse are buckets of their own.
-/

namespace ConstructServer.RateLimit

open List Option

/-! ### Addresses -/

inductive IpAddr
  | v4 (a : BitVec 32)
  | v6 (a : BitVec 128)
deriving DecidableEq

/-- `to_ipv4_mapped`: the last four octets of `::ffff:0:0/96`. -/
def toIpv4Mapped (a : BitVec 128) : Option (BitVec 32) :=
  if a >>> 32 = 0xffff#128 then some (a.truncate 32) else none

def block (a : BitVec 128) : BitVec 64 := a.extractLsb' 64 64

def network (a : BitVec 128) : BitVec 128 := block a ++ 0#64

def IpAddr.carried : IpAddr → IpAddr
  | .v4 a => .v4 a
  | .v6 a => (toIpv4Mapped a).elim (.v6 a) .v4

/-- The same IPv4 address, or IPv6 addresses in one `/64`. -/
def SameNetwork (x y : IpAddr) : Prop :=
  match x.carried, y.carried with
  | .v4 a, .v4 b => a = b
  | .v6 a, .v6 b => block a = block b
  | _, _ => False

/-- Addresses as text, in the standard library: what is written is read again, and what is read has
no bracket and no zone, no colon in an IPv4 address and at least two in an IPv6 address. -/
structure IpText where
  trim : List Char → List Char
  parse : List Char → Option IpAddr
  show4 : BitVec 32 → List Char
  show6 : BitVec 128 → List Char
  parse_show4 : ∀ a, parse (show4 a) = some (.v4 a)
  parse_show6 : ∀ a, parse (show6 a) = some (.v6 a)
  slash_notMem_show4 : ∀ a, '/' ∉ show4 a
  ne_nil : ∀ {t x}, parse t = some x → t ≠ []
  plain : ∀ {t x}, parse t = some x → '[' ∉ t ∧ ']' ∉ t ∧ '%' ∉ t
  colon_notMem : ∀ {t a}, parse t = some (.v4 a) → ':' ∉ t
  two_colons : ∀ {t a}, parse t = some (.v6 a) → 2 ≤ t.count ':'

/-- An address, with or without a zone. -/
inductive Zoned (T : IpText) : List Char → IpAddr → Prop
  | plain {t x} (h : T.parse t = some x) : Zoned T t x
  | zone {t x} (h : T.parse t = some x) (zone : List Char) (hz : ']' ∉ zone) :
      Zoned T (t ++ '%' :: zone) x

/-- The ways to write an address: as it is, in brackets, in brackets with a port, and with a port
after an IPv4 address. -/
inductive Denotes (T : IpText) : List Char → IpAddr → Prop
  | bare {t x} (h : Zoned T t x) : Denotes T t x
  | brackets {t x} (h : Zoned T t x) : Denotes T ('[' :: (t ++ [']'])) x
  | bracketsPort {t x} (h : Zoned T t x) (port : List Char) (hp : port.all Char.isDigit) :
      Denotes T ('[' :: (t ++ ']' :: ':' :: port)) x
  | port {t a} (h : T.parse t = some (.v4 a)) (port : List Char) (hp : port.all Char.isDigit) :
      Denotes T (t ++ ':' :: port) (.v4 a)

/-! ### The bucket -/

/-- `rsplit_once`, the part before the last separator. -/
def rsplitOnceHost (c : Char) (cs : List Char) : Option (List Char) :=
  (Decimal.splitOnce c cs.reverse).map fun p => p.2.reverse

/-- The text without brackets and what follows them, and without a zone. -/
def bareAddress (raw : List Char) : Option (List Char) :=
  let inner := match raw with
    | '[' :: rest => (Decimal.splitOnce ']' rest).map Prod.fst
    | raw => some raw
  inner.map (·.takeWhile (· ≠ '%'))

variable (T : IpText)

/-- The address as written, or what is before its only colon. -/
def parseBare (bare : List Char) : Option IpAddr :=
  (T.parse bare).orElse fun _ => match rsplitOnceHost ':' bare with
    | some host => if ':' ∈ host then T.parse bare else T.parse host
    | none => T.parse bare

def clientRateBucket (clientIp : List Char) : List Char :=
  let raw := T.trim clientIp
  if raw = [] then "unknown".toList
  else match bareAddress raw with
    | none => raw
    | some bare => match parseBare T bare with
      | some (.v4 a) => T.show4 a
      | some (.v6 a) => match toIpv4Mapped a with
        | some b => T.show4 b
        | none => T.show6 (network a) ++ "/64".toList
      | none => raw

def addressOf (clientIp : List Char) : Option IpAddr :=
  if T.trim clientIp = [] then none else (bareAddress (T.trim clientIp)).bind (parseBare T)

def bucketText : IpAddr → List Char
  | .v4 a => T.show4 a
  | .v6 a => T.show6 (network a) ++ "/64".toList

variable {T} {s t : List Char} {x y : IpAddr}

theorem clientRateBucket_of_address (h : addressOf T s = some x) :
    clientRateBucket T s = bucketText T x.carried := by
  unfold addressOf at h
  split_ifs at h with he
  obtain ⟨bare, hb, hp⟩ := bind_eq_some_iff.mp h
  simp only [clientRateBucket, if_neg he, hb, hp]
  cases x with
  | v4 a => rfl
  | v6 a =>
    cases hm : toIpv4Mapped a <;> simp only [IpAddr.carried, hm, Option.elim, bucketText]

theorem IpText.show4_injective (T : IpText) : Function.Injective T.show4 := fun a b h => by
  have hp := T.parse_show4 a
  rw [h, T.parse_show4] at hp
  cases hp
  rfl

theorem IpText.show6_injective (T : IpText) : Function.Injective T.show6 := fun a b h => by
  have hp := T.parse_show6 a
  rw [h, T.parse_show6] at hp
  cases hp
  rfl

theorem network_eq_iff {a b : BitVec 128} : network a = network b ↔ block a = block b := by
  have hr : ∀ c : BitVec 128, block (network c) = block c := fun c => BitVec.extractLsb'_append_eq_left
  exact ⟨fun h => by rw [← hr a, h, hr b], fun h => congrArg (· ++ 0#64) h⟩

theorem show4_ne_network (a : BitVec 32) (cs : List Char) : T.show4 a ≠ cs ++ "/64".toList := fun h =>
  T.slash_notMem_show4 a (h ▸ mem_append_right _ (by decide))

/-! ### Written forms -/

theorem takeWhile_of_notMem (h : '%' ∉ t) : t.takeWhile (· ≠ '%') = t := by
  have hall : ∀ c ∈ t, decide (c ≠ '%') = true := fun c hc => decide_eq_true fun heq => h (heq ▸ hc)
  simpa using @takeWhile_append_of_pos _ _ t [] hall

theorem takeWhile_zone {zone : List Char} (h : '%' ∉ t) :
    (t ++ '%' :: zone).takeWhile (· ≠ '%') = t := by
  have hall : ∀ c ∈ t, decide (c ≠ '%') = true := fun c hc => decide_eq_true fun heq => h (heq ▸ hc)
  rw [takeWhile_append_of_pos hall]
  simp

theorem Zoned.address (h : Zoned T t x) : T.parse (t.takeWhile (· ≠ '%')) = some x ∧ ']' ∉ t ∧
      t ≠ [] ∧ ∀ rest, t ≠ '[' :: rest := by
  have hfront : ∀ {u zone : List Char} {x}, T.parse u = some x → ∀ rest, u ++ zone ≠ '[' :: rest := by
    intro u zone x hu rest heq
    obtain ⟨c, u, rfl⟩ := exists_cons_of_ne_nil (T.ne_nil hu)
    cases heq
    exact (T.plain hu).1 mem_cons_self
  cases h with
  | plain h =>
    exact ⟨by rw [takeWhile_of_notMem (T.plain h).2.2, h], (T.plain h).2.1, T.ne_nil h, append_nil t ▸ hfront h⟩
  | zone h zone hz =>
    refine ⟨by rw [takeWhile_zone (T.plain h).2.2, h], fun hm => ?_, by simp, hfront h⟩
    obtain hm | hm := mem_append.mp hm
    · exact (T.plain h).2.1 hm
    · obtain heq | hm := mem_cons.mp hm
      · exact absurd heq (by decide)
      · exact hz hm

theorem bareAddress_of_front (h : ∀ rest, t ≠ '[' :: rest) :
    bareAddress t = some (t.takeWhile (· ≠ '%')) := by
  unfold bareAddress
  split
  · next rest => exact absurd rfl (h rest)
  · rfl

theorem bareAddress_brackets {rest : List Char} (h : ']' ∉ t) :
    bareAddress ('[' :: (t ++ ']' :: rest)) = some (t.takeWhile (· ≠ '%')) := by
  simp only [bareAddress, Decimal.splitOnce_append h, map_some]

theorem parseBare_of_parse (h : T.parse t = some x) : parseBare T t = some x := by
  rw [parseBare, h]
  rfl

theorem parseBare_port {a : BitVec 32} {port : List Char} (h : T.parse t = some (.v4 a))
    (hp : ':' ∉ port) : parseBare T (t ++ ':' :: port) = some (.v4 a) := by
  have hc := T.colon_notMem h
  have hno : T.parse (t ++ ':' :: port) = none := by
    rw [eq_none_iff_forall_ne_some]
    rintro (b | b) hb
    · exact T.colon_notMem hb (by simp)
    · have := T.two_colons hb
      rw [count_append, count_cons_self, count_eq_zero.mpr hc,
        count_eq_zero.mpr hp] at this
      omega
  have hsplit : rsplitOnceHost ':' (t ++ ':' :: port) = some t := by
    rw [rsplitOnceHost, reverse_append, reverse_cons, append_assoc,
      singleton_append, Decimal.splitOnce_append (by simpa using hp), map_some,
      reverse_reverse]
  simp only [parseBare, hno, hsplit, if_neg hc, h]
  rfl

/-- **The function reads an address in each way to write it.** -/
theorem addressOf_of_denotes (h : Denotes T (T.trim s) x) : addressOf T s = some x := by
  unfold addressOf
  generalize T.trim s = raw at h
  cases h with
  | bare h =>
    obtain ⟨hp, -, hne, hf⟩ := h.address
    rw [if_neg hne, bareAddress_of_front hf, bind_some, parseBare_of_parse hp]
  | brackets h =>
    obtain ⟨hp, hb, -, -⟩ := h.address
    rw [if_neg (by simp), bareAddress_brackets hb, bind_some, parseBare_of_parse hp]
  | bracketsPort h port =>
    obtain ⟨hp, hb, -, -⟩ := h.address
    rw [if_neg (by simp), bareAddress_brackets hb, bind_some, parseBare_of_parse hp]
  | @port t a h port hd =>
    have hdigit : ∀ {c : Char}, c.isDigit = false → c ∉ port := fun hc hm => by
      rw [all_eq_true.mp hd _ hm] at hc
      cases hc
    obtain ⟨-, -, -, hf⟩ := (Zoned.plain h).address
    have hf' : ∀ rest, t ++ ':' :: port ≠ '[' :: rest := by
      intro rest heq
      obtain ⟨c, u, rfl⟩ := exists_cons_of_ne_nil (T.ne_nil h)
      cases heq
      exact hf _ rfl
    have hper : '%' ∉ t ++ ':' :: port := by
      simp [(T.plain h).2.2, hdigit (by decide : '%'.isDigit = false)]
    rw [if_neg (by simp), bareAddress_of_front hf', bind_some, takeWhile_of_notMem hper,
      parseBare_port h (hdigit (by decide))]

/-- **Two written addresses share a bucket exactly if the addresses are in one network.** -/
theorem clientRateBucket_eq_iff (hs : Denotes T (T.trim s) x) (ht : Denotes T (T.trim t) y) :
    clientRateBucket T s = clientRateBucket T t ↔ SameNetwork x y := by
  rw [clientRateBucket_of_address (addressOf_of_denotes hs),
    clientRateBucket_of_address (addressOf_of_denotes ht)]
  unfold SameNetwork
  cases x.carried with
  | v4 a =>
    cases y.carried with
    | v4 b => exact T.show4_injective.eq_iff
    | v6 b => exact iff_of_false (show4_ne_network a _) id
  | v6 a =>
    cases y.carried with
    | v4 b => exact iff_of_false (fun h => show4_ne_network b _ h.symm) id
    | v6 b => exact (append_left_inj _).trans (T.show6_injective.eq_iff.trans network_eq_iff)

/-- Addresses in unary, with two colons in front of those of the sixth version. -/
def parseUnary : List Char → Option IpAddr
  | ':' :: ':' :: rest => if rest.all (· = '1') then some (.v6 (.ofNat 128 rest.length)) else none
  | '1' :: rest => if rest.all (· = '1') then some (.v4 (.ofNat 32 rest.length)) else none
  | _ => none

theorem parseUnary_eq_some (h : parseUnary t = some x) : ∃ rest, (∀ c ∈ rest, c = '1') ∧
      (t = ':' :: ':' :: rest ∧ x = .v6 (.ofNat 128 rest.length) ∨
        t = '1' :: rest ∧ x = .v4 (.ofNat 32 rest.length)) := by
  unfold parseUnary at h
  split at h
  · split_ifs at h with hrest
    cases h
    exact ⟨_, by simpa using hrest, .inl ⟨rfl, rfl⟩⟩
  · split_ifs at h with hrest
    cases h
    exact ⟨_, by simpa using hrest, .inr ⟨rfl, rfl⟩⟩
  · cases h

def unaryText : IpText where
  trim := id
  parse := parseUnary
  show4 a := '1' :: List.replicate a.toNat '1'
  show6 a := ':' :: ':' :: List.replicate a.toNat '1'
  parse_show4 a := by simp [parseUnary]
  parse_show6 a := by simp [parseUnary]
  slash_notMem_show4 a := by simp [mem_replicate]
  ne_nil h := by
    obtain ⟨rest, -, ⟨rfl, -⟩ | ⟨rfl, -⟩⟩ := parseUnary_eq_some h <;> simp
  plain h := by
    obtain ⟨rest, hrest, h⟩ := parseUnary_eq_some h
    have hno : ∀ {c : Char}, c ≠ '1' → c ∉ rest := fun hc hm => hc (hrest _ hm)
    obtain ⟨rfl, -⟩ | ⟨rfl, -⟩ := h <;> simp [hno]
  colon_notMem h := by
    obtain ⟨rest, hrest, ⟨-, hx⟩ | ⟨rfl, -⟩⟩ := parseUnary_eq_some h
    · cases hx
    · simpa using fun hm => absurd (hrest _ hm) (by decide)
  two_colons h := by
    obtain ⟨rest, -, ⟨rfl, -⟩ | ⟨-, hx⟩⟩ := parseUnary_eq_some h
    · simp
    · cases hx

/-- An address in brackets with a zone and a port shares its network with another one, and no IPv4
address with a port. -/
theorem clientRateBucket_eq_iff_demo :
    clientRateBucket unaryText "[::111%en0]:443".toList = clientRateBucket unaryText "::1".toList ∧
      clientRateBucket unaryText "11:80".toList ≠ clientRateBucket unaryText "::1".toList := by
  have h : Denotes unaryText "[::111%en0]:443".toList (.v6 3) :=
    .bracketsPort (.zone (t := "::111".toList) (by decide +kernel) "en0".toList (by decide)) "443".toList (by decide)
  have h' : Denotes unaryText "::1".toList (.v6 1) := .bare (.plain (by decide +kernel))
  have h'' : Denotes unaryText "11:80".toList (.v4 1) :=
    .port (t := "11".toList) (by decide +kernel) "80".toList (by decide)
  exact ⟨(clientRateBucket_eq_iff h h').mpr (show block 3 = block 1 by decide),
    fun heq => (clientRateBucket_eq_iff h'' h').mp heq⟩

end ConstructServer.RateLimit
