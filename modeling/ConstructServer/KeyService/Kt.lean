import Mathlib.Data.List.Basic
import Mathlib.Algebra.Order.Ring.Nat

/-!
# The Merkle tree of the Key Transparency log

The tree over `n` leaves splits them at the largest power of two below `n`. An inclusion proof lists
the roots of the siblings from the leaf up; the verifier folds it back, reading it from its end and
splitting the size of the tree in the same way. Nothing but the hash of two nodes is used here, so
it is a parameter.
-/

namespace ConstructServer.KeyService

open List Option

section

/-- The loop of `split`: double `k` until it is `n` or more. -/
def doubleUntil (n : Nat) : (rounds k : Nat) → Nat
  | 0, k => k
  | rounds + 1, k => if k < n then doubleUntil n rounds (k <<< 1) else k

/-- The largest power of two below `n`, for `n` from two on. -/
def split (n : Nat) : Nat := doubleUntil n n 1 >>> 1

theorem doubleUntil_spec {n rounds j : Nat} (hj : j = 0 ∨ 2 ^ (j - 1) < n) (hro : n ≤ 2 ^ (j + rounds)) :
    ∃ i, doubleUntil n rounds (2 ^ j) = 2 ^ i ∧ n ≤ 2 ^ i ∧ (i = 0 ∨ 2 ^ (i - 1) < n) := by
  induction rounds generalizing j with
  | zero => exact ⟨j, rfl, hro, hj⟩
  | succ rounds ih =>
    rw [doubleUntil]
    split_ifs with hlt
    · have hdo : 2 ^ j <<< 1 = 2 ^ (j + 1) := by rw [Nat.shiftLeft_eq, pow_one, pow_succ]
      rw [hdo]
      refine ih (.inr hlt) ?_
      rwa [show j + 1 + rounds = j + (rounds + 1) by omega]
    · exact ⟨j, rfl, not_lt.mp hlt, hj⟩

theorem split_spec {n : Nat} (h : 2 ≤ n) : ∃ j, split n = 2 ^ j ∧ 2 ^ j < n ∧ n ≤ 2 ^ (j + 1) := by
  have hro : n ≤ 2 ^ (0 + n) := by
    rw [Nat.zero_add]
    exact Nat.lt_two_pow_self.le
  obtain ⟨i, hi, hle, hlt⟩ := doubleUntil_spec (.inl rfl) hro
  have hpo : i ≠ 0 := by
    rintro rfl
    simp at hle
    omega
  obtain ⟨j, rfl⟩ := Nat.exists_eq_succ_of_ne_zero hpo
  refine ⟨j, ?_, hlt.resolve_left hpo, hle⟩
  rw [split, ← pow_zero 2, hi, Nat.shiftRight_eq_div_pow, pow_succ]
  simp

theorem split_pos {n : Nat} (h : 2 ≤ n) : 0 < split n := by
  obtain ⟨j, hj, -, -⟩ := split_spec h
  rw [hj]
  exact Nat.two_pow_pos j

theorem split_lt {n : Nat} (h : 2 ≤ n) : split n < n := by
  obtain ⟨j, hj, hlt, -⟩ := split_spec h
  rwa [hj]

end

section

variable {Hash : Type*} (nodeHash : Hash → Hash → Hash) (emptyHash : Hash)

/-- The root of a tree whose depth is at most `fuel`. -/
def merkleRootWithin : (fuel : Nat) → List Hash → Hash
  | _, [] => emptyHash
  | _, [leaf] => leaf
  | 0, _ => emptyHash
  | fuel + 1, leaves =>
    let k := split leaves.length
    nodeHash (merkleRootWithin fuel (leaves.take k)) (merkleRootWithin fuel (leaves.drop k))

def merkleRoot (leaves : List Hash) : Hash :=
  merkleRootWithin nodeHash emptyHash leaves.length leaves

/-- The siblings on the way from a leaf to the root, in a tree whose depth is at most `fuel`. -/
def inclusionProofWithin : (fuel : Nat) → List Hash → (index : Nat) → List Hash
  | 0, _, _ => []
  | fuel + 1, leaves, index =>
    if leaves.length ≤ 1 then []
    else
      let k := split leaves.length
      if index < k then
        inclusionProofWithin fuel (leaves.take k) index ++
          [merkleRoot nodeHash emptyHash (leaves.drop k)]
      else
        inclusionProofWithin fuel (leaves.drop k) (index - k) ++
          [merkleRoot nodeHash emptyHash (leaves.take k)]

def inclusionProofInner (leaves : List Hash) (index : Nat) : List Hash :=
  inclusionProofWithin nodeHash emptyHash leaves.length leaves index

def generateInclusionProof (leaves : List Hash) (index : Nat) : Option (List Hash × Hash) :=
  if leaves.isEmpty ∨ leaves.length ≤ index then none
  else some (inclusionProofInner nodeHash emptyHash leaves index, merkleRoot nodeHash emptyHash leaves)

/-- The root that a proof leads to; the proof is read from its end. -/
def reconstructFrom (leaf : Hash) : (reversed : List Hash) → (index size : Nat) → Option Hash
  | [], index, size => if size = 1 ∧ index = 0 then some leaf else none
  | sibling :: inner, index, size =>
    let k := split size
    if index < k then (reconstructFrom leaf inner index k).map (nodeHash · sibling)
    else (reconstructFrom leaf inner (index - k) (size - k)).map (nodeHash sibling ·)

def inclusionReconstruct (leaf : Hash) (proof : List Hash) (index size : Nat) : Option Hash :=
  reconstructFrom nodeHash leaf proof.reverse index size

def verifyInclusion [DecidableEq Hash] (leaf : Hash) (proof : List Hash) (index treeSize : Nat)
    (root : Hash) : Bool :=
  if treeSize = 0 ∨ treeSize ≤ index then false
  else inclusionReconstruct nodeHash leaf proof index treeSize = some root

end

section

variable {Hash : Type*} {nodeHash : Hash → Hash → Hash} {emptyHash : Hash} {leaves : List Hash}
  {index fuel fuel' : Nat}

theorem length_halves (h : 2 ≤ leaves.length) :
    (leaves.take (split leaves.length)).length = split leaves.length ∧
      (leaves.drop (split leaves.length)).length = leaves.length - split leaves.length := by
  rw [length_take, length_drop]
  exact ⟨min_eq_left (split_lt h).le, rfl⟩

theorem merkleRootWithin_succ (h : 2 ≤ leaves.length) :
    merkleRootWithin nodeHash emptyHash (fuel + 1) leaves =
      nodeHash (merkleRootWithin nodeHash emptyHash fuel (leaves.take (split leaves.length)))
        (merkleRootWithin nodeHash emptyHash fuel (leaves.drop (split leaves.length))) := by
  match leaves, h with
  | _ :: _ :: _, _ => rfl

theorem merkleRootWithin_eq (h : leaves.length ≤ fuel) (h' : leaves.length ≤ fuel') :
    merkleRootWithin nodeHash emptyHash fuel leaves = merkleRootWithin nodeHash emptyHash fuel' leaves := by
  induction fuel generalizing leaves fuel' with
  | zero =>
    rw [length_eq_zero_iff.mp (Nat.le_zero.mp h)]
    simp [merkleRootWithin]
  | succ fuel ih =>
    match hl : leaves with
    | [] => simp [merkleRootWithin]
    | [leaf] => simp [merkleRootWithin]
    | leaf :: leaf' :: rest =>
      rw [← hl] at h h' ⊢
      have htw : 2 ≤ leaves.length := by simp [hl]
      obtain ⟨fuel', rfl⟩ : ∃ m, fuel' = m + 1 := ⟨fuel' - 1, by omega⟩
      have hpo := split_pos htw
      have hlt := split_lt htw
      obtain ⟨hta, hdr⟩ := length_halves htw
      rw [merkleRootWithin_succ htw, merkleRootWithin_succ htw,
        ih (by omega) (by omega : _ ≤ fuel'), ih (by omega) (by omega : _ ≤ fuel')]

theorem merkleRoot_eq (h : 2 ≤ leaves.length) : merkleRoot nodeHash emptyHash leaves =
      nodeHash (merkleRoot nodeHash emptyHash (leaves.take (split leaves.length)))
        (merkleRoot nodeHash emptyHash (leaves.drop (split leaves.length))) := by
  have hpo := split_pos h
  have hlt := split_lt h
  obtain ⟨hta, hdr⟩ := length_halves h
  have hf := @merkleRootWithin_eq Hash nodeHash emptyHash leaves leaves.length (leaves.length + 1) le_rfl (by omega)
  rw [merkleRoot, hf, merkleRootWithin_succ h,
    merkleRootWithin_eq (by omega) (le_refl (leaves.take (split leaves.length)).length),
    merkleRootWithin_eq (by omega) (le_refl (leaves.drop (split leaves.length)).length)]
  rfl

@[simp]
theorem merkleRoot_singleton (leaf : Hash) : merkleRoot nodeHash emptyHash [leaf] = leaf := rfl

theorem reconstructFrom_proof {leaf : Hash} (h : leaves.length ≤ fuel) (hl : leaves[index]? = some leaf) :
    reconstructFrom nodeHash leaf (inclusionProofWithin nodeHash emptyHash fuel leaves index).reverse
      index leaves.length = some (merkleRoot nodeHash emptyHash leaves) := by
  have hind : index < leaves.length := (List.getElem?_eq_some_iff.mp hl).1
  induction fuel generalizing leaves index with
  | zero => omega
  | succ fuel ih =>
    rw [inclusionProofWithin]
    by_cases hon : leaves.length ≤ 1
    · obtain ⟨l, rfl⟩ := length_eq_one_iff.mp (by omega : leaves.length = 1)
      obtain rfl : index = 0 := by simpa using hind
      obtain rfl : l = leaf := by simpa using hl
      simp [reconstructFrom]
    · have htw : 2 ≤ leaves.length := by omega
      have hpo := split_pos htw
      have hlt := split_lt htw
      obtain ⟨hta, hdr⟩ := length_halves htw
      rw [if_neg hon, merkleRoot_eq htw]
      dsimp only
      split_ifs with hle
      · have hin := @ih (leaves.take (split leaves.length)) index (by omega)
          (by rw [List.getElem?_take_of_lt hle]; exact hl) (by omega)
        rw [hta] at hin
        rw [reverse_concat, reconstructFrom, if_pos hle, hin]
        rfl
      · have hin := @ih (leaves.drop (split leaves.length)) (index - split leaves.length) (by omega)
          (by rw [List.getElem?_drop, Nat.add_sub_cancel' (not_lt.mp hle)]; exact hl) (by omega)
        rw [hdr] at hin
        rw [reverse_concat, reconstructFrom, if_neg hle, hin]
        rfl

theorem exists_proof (h : index < leaves.length) :
    ∃ proof, generateInclusionProof nodeHash emptyHash leaves index =
      some (proof, merkleRoot nodeHash emptyHash leaves) := by
  refine ⟨_, if_neg ?_⟩
  rintro (hem | hle)
  · rw [isEmpty_iff.mp hem] at h
    cases h
  · omega

theorem getElem_of_reconstructFrom {leaf : Hash}
    (hinj : ∀ a b c d, nodeHash a b = nodeHash c d → a = c ∧ b = d) {reversed : List Hash}
    (hle : ∀ l ∈ leaves, ∀ a b, nodeHash a b ≠ l) (hind : index < leaves.length)
    (h : reconstructFrom nodeHash leaf reversed index leaves.length =
      some (merkleRoot nodeHash emptyHash leaves)) : leaves[index]? = some leaf := by
  induction reversed generalizing leaves index with
  | nil =>
    rw [reconstructFrom] at h
    split_ifs at h with hon
    obtain ⟨l, rfl⟩ := length_eq_one_iff.mp hon.1
    obtain rfl : leaf = l := by simpa using h
    simp [hon.2]
  | cons sibling inner ih =>
    rw [reconstructFrom] at h
    by_cases htw : 2 ≤ leaves.length
    · obtain ⟨hta, hdr⟩ := length_halves htw
      have hlt := split_lt htw
      rw [merkleRoot_eq htw] at h
      split_ifs at h with hlef
      · obtain ⟨root, hro, hno⟩ := map_eq_some_iff.mp h
        obtain ⟨rfl, -⟩ := hinj _ _ _ _ hno
        have hin := @ih (leaves.take (split leaves.length)) index
          (fun l hl => hle l (mem_of_mem_take hl)) (by omega) (by rwa [hta])
        rwa [List.getElem?_take_of_lt hlef] at hin
      · obtain ⟨root, hro, hno⟩ := map_eq_some_iff.mp h
        obtain ⟨-, rfl⟩ := hinj _ _ _ _ hno
        have hin := @ih (leaves.drop (split leaves.length)) (index - split leaves.length)
          (fun l hl => hle l (mem_of_mem_drop hl)) (by omega) (by rwa [hdr])
        rwa [List.getElem?_drop, Nat.add_sub_cancel' (not_lt.mp hlef)] at hin
    · -- A tree of one leaf: the path is too long and ends in the hash of a node.
      obtain ⟨l, rfl⟩ := length_eq_one_iff.mp (by omega : leaves.length = 1)
      rw [merkleRoot_singleton] at h
      split_ifs at h
      · obtain ⟨root, -, hno⟩ := map_eq_some_iff.mp h
        exact absurd hno (hle l (by simp) _ _)
      · obtain ⟨root, -, hno⟩ := map_eq_some_iff.mp h
        exact absurd hno (hle l (by simp) _ _)

end

section

variable {Hash : Type*} [DecidableEq Hash]

theorem verifyInclusion_eq_true_iff {nodeHash : Hash → Hash → Hash} {leaf root : Hash}
    {proof : List Hash}
    {index treeSize : Nat} : verifyInclusion nodeHash leaf proof index treeSize root = true ↔
      index < treeSize ∧ inclusionReconstruct nodeHash leaf proof index treeSize = some root := by
  unfold verifyInclusion
  split_ifs with h
  · simp only [false_iff, not_and]
    omega
  · simp only [decide_eq_true_eq]
    exact ⟨fun hro => ⟨by omega, hro⟩, fun hro => hro.2⟩

theorem verifyInclusion_generate {nodeHash : Hash → Hash → Hash} {emptyHash leaf root : Hash}
    {leaves proof : List Hash} {index : Nat} (hl : leaves[index]? = some leaf)
    (hpr : generateInclusionProof nodeHash emptyHash leaves index = some (proof, root)) :
    verifyInclusion nodeHash leaf proof index leaves.length root = true := by
  unfold generateInclusionProof at hpr
  split_ifs at hpr
  cases hpr
  exact verifyInclusion_eq_true_iff.mpr ⟨(List.getElem?_eq_some_iff.mp hl).1, reconstructFrom_proof le_rfl hl⟩

/-- **Every leaf has a proof that is accepted; and if hashes of nodes are all different and none is
a leaf, a path of any length is accepted only for the leaf at its index.** -/
theorem inclusion_complete_and_sound (nodeHash : Hash → Hash → Hash) (emptyHash : Hash)
    (leaves : List Hash) :
    (∀ index leaf, leaves[index]? = some leaf → ∃ proof, generateInclusionProof nodeHash emptyHash leaves index =
          some (proof, merkleRoot nodeHash emptyHash leaves) ∧
            verifyInclusion nodeHash leaf proof index leaves.length
          (merkleRoot nodeHash emptyHash leaves) = true) ∧ ((∀ a b c d, nodeHash a b = nodeHash c d → a = c ∧ b = d) →
        (∀ l ∈ leaves, ∀ a b, nodeHash a b ≠ l) →
        ∀ index leaf proof, verifyInclusion nodeHash leaf proof index leaves.length
            (merkleRoot nodeHash emptyHash leaves) = true → leaves[index]? = some leaf) := by
  constructor
  · intro index leaf hleaf
    obtain ⟨proof, hproof⟩ := @exists_proof Hash nodeHash emptyHash leaves index
      (List.getElem?_eq_some_iff.mp hleaf).1
    exact ⟨proof, hproof, verifyInclusion_generate hleaf hproof⟩
  · intro hinj hleaves index leaf proof haccept
    obtain ⟨hindex, hroot⟩ := verifyInclusion_eq_true_iff.mp haccept
    exact getElem_of_reconstructFrom hinj hleaves hindex hroot

/-- Hashes without collisions: what was hashed is kept. -/
inductive FreeHash
  | leaf (n : Nat)
  | node (left right : FreeHash)
deriving DecidableEq

/-- A tree of three leaves: the proof for the last one is accepted, and only for it. -/
theorem freeHash_inclusion : verifyInclusion FreeHash.node (.leaf 2) [.node (.leaf 0) (.leaf 1)] 2 3
        (merkleRoot .node (.leaf 9) [.leaf 0, .leaf 1, .leaf 2]) = true ∧
      [FreeHash.leaf 0, .leaf 1, .leaf 2][2]? = some (.leaf 2) := by
  have haccept : verifyInclusion FreeHash.node (.leaf 2) [.node (.leaf 0) (.leaf 1)] 2 3
      (merkleRoot .node (.leaf 9) [.leaf 0, .leaf 1, .leaf 2]) = true := by decide
  refine ⟨haccept, ?_⟩
  refine (inclusion_complete_and_sound FreeHash.node (.leaf 9) [.leaf 0, .leaf 1, .leaf 2]).2
    (fun a b c d h => FreeHash.node.inj h) (fun l hl a b => ?_) 2 (.leaf 2) _ haccept
  rintro rfl
  simp at hl

end

end ConstructServer.KeyService
