import Mathlib.Data.List.Sort
import Mathlib.Data.Prod.Lex
import Mathlib.Data.String.Basic
import ConstructServer.Library.Machine
import ConstructServer.Messaging.Intake

/-!
# Which fronts an account learns

A capability for a front comes with up to `k` alternates: the fronts are ranked by a hash of the
account, the address and the day, and the alternates are the first ones other than the front that
was asked for. A bootstrap voucher names the first front of the same ranking. An account that asks
again with the fronts it has learnt therefore stays within the first `k + 1` fronts of its ranking.
-/

namespace ConstructServer.Veil

open Queue Machine List Option

def fnvOffset : UInt64 := 0xcbf29ce484222325

def fnvPrime : UInt64 := 0x00000100000001b3

def mix (h : UInt64) (bytes : Bytes) : UInt64 := bytes.foldl (fun h b => (h ^^^ b.toUInt64) * fnvPrime) h

/-- The rank of a front for an account in an epoch, which is the bit pattern of an `i64`. -/
def altRank (userId : Bytes) (addr : String) (epoch : UInt64) : UInt64 :=
  mix (mix (mix fnvOffset userId) (utf8 addr)) (Framing.beBytes 8 epoch.toNat).reverse

/-- The addresses of the configured fronts, in the order in which the map is iterated. -/
structure Relays where
  keys : List String
  nodup : keys.Nodup

inductive IssueError
  | noRelaysConfigured
  | relayAddressRequired
  | unknownRelay (requested : String)
  | failed

/-- `str::trim`. -/
def trim (s : String) : String :=
  String.ofList ((s.toList.dropWhile Messaging.isWhiteSpace).reverse.dropWhile Messaging.isWhiteSpace).reverse

def resolvePrimaryRelay (relays : Relays) (requested : String) : Except IssueError String :=
  let requested := trim requested
  if requested ≠ "" then
    if requested ∈ relays.keys then .ok requested else .error (.unknownRelay requested)
  else
    match relays.keys with
    | [] => .error .noRelaysConfigured
    | [sole] => .ok sole
    | _ => .error .relayAddressRequired

section

variable (userId : Bytes) (epoch : UInt64)

def rankKey (addr : String) : ℕ ×ₗ String := toLex ((altRank userId addr epoch).toNat, addr)

def ranked (addrs : List String) : List String :=
  addrs.insertionSort fun a b => rankKey userId epoch a ≤ rankKey userId epoch b

def selectAlternateAddresses (relays : Relays) (primary : String) (k : Nat) : List String :=
  if k = 0 then [] else (ranked userId epoch (relays.keys.filter (· ≠ primary))).take k

def selectVoucherFront (relays : Relays) : Except IssueError String :=
  match ranked userId epoch relays.keys with
  | [] => .error .noRelaysConfigured
  | front :: _ => .ok front

/-- The fronts of a bundle; a front whose capability cannot be issued is left out, or refuses the
request if it is the primary. -/
def issueBundle (relays : Relays) (relayAddress : String) (k : Nat) (issues : String → Bool) :
    Except IssueError (String × List String) := do
  let primary ← resolvePrimaryRelay relays relayAddress
  if !issues primary then .error .failed
  .ok (primary, (selectAlternateAddresses userId epoch relays primary k).filter issues)

/-- A call of the account: for a capability, or for a voucher. -/
inductive FrontCall
  | issue (relayAddress : String) (issues : String → Bool)
  | voucher

def learn (relays : Relays) (k : Nat) (known : List String) : FrontCall → Option (List String)
  | .issue relayAddress issues =>
    if trim relayAddress ∈ known then
      match issueBundle userId epoch relays relayAddress k issues with
      | .ok (primary, alternates) => some (primary :: alternates ++ known)
      | .error _ => some known
    else none
  | .voucher =>
    match selectVoucherFront userId epoch relays with
    | .ok front => some (front :: known)
    | .error _ => some known

end

section

variable {userId : Bytes} {epoch : UInt64} {relays relays' : Relays} {k : Nat} {primary start : String}
  {known : List String} {calls : List FrontCall}

theorem rankKey_injective : Function.Injective (rankKey userId epoch) := fun _ _ h =>
  congrArg (fun p => (ofLex p).2) h

theorem pairwise_ranked (l : List String) :
    (ranked userId epoch l).Pairwise fun a b => rankKey userId epoch a ≤ rankKey userId epoch b := by
  have ht : Std.Total fun a b => rankKey userId epoch a ≤ rankKey userId epoch b := ⟨fun _ _ => le_total _ _⟩
  have htr : IsTrans _ fun a b => rankKey userId epoch a ≤ rankKey userId epoch b := ⟨fun _ _ _ => le_trans⟩
  exact pairwise_insertionSort _ l

theorem ranked_eq_of_perm {l l' : List String} (h : l.Perm l') (hs : l'.Pairwise fun a b =>
    rankKey userId epoch a ≤ rankKey userId epoch b) : ranked userId epoch l = l' := by
  refine List.Perm.eq_of_pairwise (fun a b _ _ hab hba => rankKey_injective (le_antisymm hab hba))
    (pairwise_ranked l) hs ((perm_insertionSort _ l).trans h)

theorem selectAlternateAddresses_congr (h : relays.keys.Perm relays'.keys) :
    selectAlternateAddresses userId epoch relays primary k =
      selectAlternateAddresses userId epoch relays' primary k := by
  unfold selectAlternateAddresses
  rw [ranked_eq_of_perm ((h.filter _).trans (perm_insertionSort _ _).symm) (pairwise_ranked _)]
  rfl

theorem primary_not_mem_alternates : primary ∉ selectAlternateAddresses userId epoch relays primary k := by
  unfold selectAlternateAddresses
  split_ifs
  · exact not_mem_nil
  · intro h
    have hm := mem_of_mem_take h
    simp [ranked] at hm

theorem take_filter_ne_subset {l : List String} (h : l.Nodup) (p : String) (k : Nat) :
    (l.filter (· ≠ p)).take k ⊆ l.take (k + 1) := by
  induction l generalizing k with
  | nil => simp
  | cons a l ih =>
    obtain ⟨ha, hl⟩ := nodup_cons.mp h
    cases k with
    | zero => simp
    | succ k =>
      by_cases hp : a = p
      · subst hp
        have hs : l.filter (· ≠ a) = l := filter_eq_self.mpr fun b hb => by
          have hne : b ≠ a := fun hba => ha (hba ▸ hb)
          simpa using hne
        rw [filter_cons_of_neg (by simp), hs]
        exact fun x hx => mem_cons_of_mem _ hx
      · rw [filter_cons_of_pos (by simpa using hp), take_succ_cons, take_succ_cons]
        exact cons_subset_cons a (ih hl k)

theorem alternates_subset : selectAlternateAddresses userId epoch relays primary k ⊆
      (ranked userId epoch relays.keys).take (k + 1) := by
  unfold selectAlternateAddresses
  split_ifs
  · exact nil_subset _
  -- Leaving the primary out before or after the ranking is the same.
  · have hp := (perm_insertionSort (fun a b => rankKey userId epoch a ≤ rankKey userId epoch b) relays.keys)
    rw [ranked_eq_of_perm (hp.filter (· ≠ primary)).symm ((pairwise_ranked _).filter _)]
    exact take_filter_ne_subset (hp.nodup_iff.mpr relays.nodup) primary k

theorem learn_subset {call : FrontCall} {known' : List String}
    (h : learn userId epoch relays k known call = some known')
    (hk : ∀ f ∈ known, f = start ∨ f ∈ (ranked userId epoch relays.keys).take (k + 1)) :
    ∀ f ∈ known', f = start ∨ f ∈ (ranked userId epoch relays.keys).take (k + 1) := by
  cases call with
  | voucher =>
    simp only [learn, selectVoucherFront] at h
    cases hr : ranked userId epoch relays.keys with
    | nil =>
      rw [hr] at h hk
      obtain rfl := some.inj h
      exact hk
    | cons front rest =>
      rw [hr] at h hk
      obtain rfl := some.inj h
      intro f hf
      obtain rfl | hf := mem_cons.mp hf
      · exact .inr (by simp)
      · exact hk f hf
  | issue relayAddress issues =>
    simp only [learn] at h
    split_ifs at h with hkn
    split at h
    next primary alternates hb =>
      obtain rfl := some.inj h
      -- The primary is the front that was asked for, unless it is the only one there is.
      simp only [issueBundle, bind, Except.bind] at hb
      split at hb
      · cases hb
      next p hp =>
      split_ifs at hb
      obtain ⟨rfl, rfl⟩ := Prod.mk.inj (Except.ok.inj hb)
      intro f hf
      simp only [cons_append, mem_cons, mem_append] at hf
      obtain rfl | hf | hf := hf
      · simp only [resolvePrimaryRelay] at hp
        split_ifs at hp
        · obtain rfl := Except.ok.inj hp
          exact hk _ hkn
        · split at hp
          · cases hp
          next sole hs =>
            obtain rfl := Except.ok.inj hp
            exact .inr (by simp [ranked, hs])
          · cases hp
      · exact .inr (alternates_subset (mem_of_mem_filter hf))
      · exact hk f hf
    next =>
      obtain rfl := some.inj h
      exact hk

/-- **An account that knows one front learns at most `k + 1` further ones in an epoch,** however
often it asks with the fronts it has learnt and for vouchers. Its alternates never hold the front
that it named, and do not depend on the order of the map. -/
theorem few_fronts_are_learnt (h : run (learn userId epoch relays k) [start] calls = some known) :
    (known.toFinset.erase start).card ≤ k + 1 ∧
      (∀ primary, primary ∉ selectAlternateAddresses userId epoch relays primary k) ∧
      ∀ relays' : Relays, relays.keys.Perm relays'.keys → ∀ primary,
        selectAlternateAddresses userId epoch relays primary k =
          selectAlternateAddresses userId epoch relays' primary k := by
  refine ⟨?_, fun _ => primary_not_mem_alternates, fun _ hperm _ => selectAlternateAddresses_congr hperm⟩
  have hk : ∀ f ∈ known, f = start ∨ f ∈ (ranked userId epoch relays.keys).take (k + 1) :=
    run_invariant (fun hs _ hstep => learn_subset hstep hs) (by simp)
      (along_of_forall (G := fun _ _ => True) fun _ _ => trivial) h
  have hsub : known.toFinset.erase start ⊆ ((ranked userId epoch relays.keys).take (k + 1)).toFinset := by
    intro f hf
    obtain ⟨hne, hf⟩ := Finset.mem_erase.mp hf
    exact mem_toFinset.mpr ((hk f (mem_toFinset.mp hf)).resolve_left hne)
  calc (known.toFinset.erase start).card
      ≤ ((ranked userId epoch relays.keys).take (k + 1)).toFinset.card := Finset.card_le_card hsub
    _ ≤ ((ranked userId epoch relays.keys).take (k + 1)).length := toFinset_card_le _
    _ ≤ k + 1 := length_take_le _ _

/-- Five fronts, one alternate, and the second call names what the first one brought. -/
theorem few_fronts_are_learnt_demo :
    ∃ known, run (learn [7] 20758 ⟨["a:1", "b:1", "c:1", "d:1", "e:1"], by decide⟩ 1) ["a:1"]
        [.issue "a:1" fun _ => true, .issue "d:1" fun _ => true, .voucher] = some known ∧
      (known.toFinset.erase "a:1").card ≤ 2 := by
  obtain ⟨known, hrun, -⟩ := reaches (learn [7] 20758 ⟨["a:1", "b:1", "c:1", "d:1", "e:1"], by decide⟩ 1)
    ["a:1"] [.issue "a:1" fun _ => true, .issue "d:1" fun _ => true, .voucher]
    (fun known => known.length = 6) (by decide +kernel)
  exact ⟨known, hrun, (few_fronts_are_learnt hrun).1⟩

end

end ConstructServer.Veil
