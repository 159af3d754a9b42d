import ConstructServer.Messaging.Federation

/-!
# A signed envelope is dispatched at most once and not answered before

All presentations of one signed envelope share one claim. It is held by a presentation that has
yet to dispatch or by a dispatch that succeeded, so while every claim is made before the first one
can expire there is at most one of them. A presentation that finds the claim held is answered as
a duplicate, which says that the envelope was dispatched only if no other one still holds it.
-/

namespace ConstructServer.Messaging

open Queue Redis FederationState Machine Keyspace Option Function List

def FederatedEnvelope.timestampMs (signed : FederatedEnvelope) : Nat :=
  signed.timestamp.toNat * 1000

def FedPhase.validatedAt : FedPhase → Option Nat
  | .claiming v => some v
  | _ => none

def FedProcess.holds (signed : FederatedEnvelope) (p : FedProcess) : Bool :=
  p.signed = signed ∧ p.phase.validatedAt = none

def holders (signed : FederatedEnvelope) (s : FederationState) : Nat :=
  s.pool.countP (·.holds signed) + s.dispatched.countP (·.signed = signed)

/-- How long after its timestamp check a presentation may claim: the claims of an envelope are
then all made before the first of them expires. -/
def claimWindow : Nat := (federationMsgDedupTtlSecs - 2 * federationTimestampMaxSkewSecs - 1) * 1000

def AtMostOnce (signed : FederatedEnvelope) (s : FederationState) : Prop :=
  s.dispatched.countP (·.signed = signed) ≤ 1

section

variable (server : FederationServer) (signed : FederatedEnvelope)

/-- Every presentation of the envelope that was answered as accepted or as a duplicate has its
content in a mailbox of the recipient. -/
def AnsweredDispatched (s : FederationState) : Prop :=
  ∀ a ∈ s.answered, a.signed = signed → a.answer.isOk = true → ∃ d ∈ s.dispatched,
    d.signed = signed ∧ Carries server signed d.env ∧
      Landed server.delivery server.codec s.store.streams d.env

/-- A request whose origin and message id are those of the envelope presents this envelope. -/
def UnderOwnId (request : InboundRequest) : Prop :=
  (∀ f ∈ claimFields (server.signedFields request).originServer
    (server.signedFields request).messageId, Framing.Fits f) ∧
    ((server.signedFields request).originServer = signed.originServer ∧
      (server.signedFields request).messageId = signed.messageId →
      server.signedFields request = signed)

/-- No other envelope arrives under the origin and message id of this one, and its presentations
claim soon after their timestamp check. -/
def ClaimsInTime (s : FederationState) : FedAction → Prop
  | .arrive request _ => UnderOwnId server signed request
  | .claim i _ =>
    ∀ p ∈ s.pool[i]?, p.signed = signed → ∀ v ∈ p.phase.validatedAt, s.now < v + claimWindow
  | _ => True

def NotDropped (s : FederationState) : Except String (Option (SealedRequest × Bytes)) → Prop
  | .error _ => True
  | .ok none => False
  | .ok (some (_, tag)) => tag = [] ∨ ¬ TagMarked server.sha256 s.tags s.now tag

def Routed (s : FederationState) (inputs : SealedInputs) : FedContent → Prop
  | .message _ => True
  | .sealed sealedBytes => NotDropped server s (server.resolveSealed inputs sealedBytes)

def NotSkipped (s : FederationState) (inputs : DispatchInputs) : FedPhase → Prop
  | .dispatching env _ => isUserMessage env.messageType = true →
      MessageDedupKey.forEnvelope server.sha256 env ∉ s.store.marks ∧
        droppedAsBlocked inputs env = false
  | _ => True

/-- A presentation of the envelope claims while no other one holds the claim, and the reply is not
lost; it is not skipped by the block, duplicate and tag checks of the dispatch; and the release
after a failed dispatch does not fail. -/
def AnswersAfterDispatch (s : FederationState) : FedAction → Prop
  | .claim i o => ∀ p ∈ s.pool[i]?, p.signed = signed →
      o ≠ .lost ∧ s.pool.all (!·.holds signed)
  | .resolve i inputs _ => ∀ p ∈ s.pool[i]?, p.signed = signed → Routed server s inputs p.content
  | .dispatch i inputs => ∀ p ∈ s.pool[i]?, p.signed = signed → NotSkipped server s inputs p.phase
  | .release i o => ∀ p ∈ s.pool[i]?, p.signed = signed → o ≠ .failed
  | _ => True

section

variable (s : FederationState)

instance (request : InboundRequest) : Decidable (UnderOwnId server signed request) :=
  inferInstanceAs (Decidable (_ ∧ _))

instance : (action : FedAction) → Decidable (ClaimsInTime server signed s action) := fun action => by
  cases action <;> dsimp only [ClaimsInTime] <;> infer_instance

instance : (route : Except String (Option (SealedRequest × Bytes))) →
    Decidable (NotDropped server s route) := fun route => by
  rcases route with _ | _ | ⟨_, _⟩ <;> dsimp only [NotDropped] <;> infer_instance

instance (inputs : SealedInputs) : (content : FedContent) →
    Decidable (Routed server s inputs content) := fun content => by
  cases content <;> dsimp only [Routed] <;> infer_instance

instance (inputs : DispatchInputs) : (phase : FedPhase) →
    Decidable (NotSkipped server s inputs phase) := fun phase => by
  cases phase <;> dsimp only [NotSkipped] <;> infer_instance

instance : (action : FedAction) → Decidable (AnswersAfterDispatch server signed s action) := fun action => by
  cases action <;> dsimp only [AnswersAfterDispatch] <;> infer_instance

end

def ClaimLasts (claims : Keyspace Unit) : Prop :=
  ∃ deadline, claims (claimKey server signed) = some ⟨(), some deadline⟩ ∧
    signed.timestampMs + 604500000 ≤ deadline

/-- The claim of the envelope has at most one holder, and while it has one it cannot expire before
a presentation claims. -/
structure OnceInvariant (s : FederationState) : Prop where
  keyed : ∀ p ∈ s.pool, claimKey server p.signed = claimKey server signed → p.signed = signed
  fresh : ∀ p ∈ s.pool, p.signed = signed → ∀ v ∈ p.phase.validatedAt, v ≤ s.now ∧
    signed.timestampMs ≤ v + 300000 ∧ v < signed.timestampMs + 301000
  held : 0 < holders signed s → ClaimLasts server signed s.claims
  once : holders signed s ≤ 1

/-- A claim of the envelope has a holder, and what was answered or dispatched for it was written. -/
structure AckInvariant (s : FederationState) : Prop where
  claimed : (s.claims (claimKey server signed)).isSome →
    (∃ p ∈ s.pool, p.holds signed = true) ∨ ∃ d ∈ s.dispatched, d.signed = signed
  content : ∀ p ∈ s.pool, p.signed = signed → ContentOf server signed p.content ∧
    ∀ env tag, p.phase = .dispatching env tag → Carries server signed env
  stored : ∀ d ∈ s.dispatched, d.signed = signed → Carries server signed d.env ∧
    Landed server.delivery server.codec s.store.streams d.env
  answered : ∀ a ∈ s.answered, a.signed = signed → a.answer.isOk = true →
    ∃ d ∈ s.dispatched, d.signed = signed

end

section

variable {server : FederationServer} {signed : FederatedEnvelope} {s t : FederationState}
  {i : Nat} {p : FedProcess}

theorem holders_replace (next : Option FedProcess) (hp : s.pool[i]? = some p)
    (hpo : t.pool = Machine.replace s.pool i next) :
    holders signed t + (if p.holds signed then 1 else 0) + s.dispatched.countP (·.signed = signed) =
      holders signed s + next.toList.countP (·.holds signed) + t.dispatched.countP (·.signed = signed) := by
  have hco := countP_replace next (·.holds signed) hp
  rw [← hpo] at hco
  unfold holders
  omega

theorem not_holds_of_claiming {v : Nat} (hp : p.phase = .claiming v) : p.holds signed = false := by
  simp [FedProcess.holds, hp, FedPhase.validatedAt]

theorem holds_eq (h : p.phase.validatedAt = none) : p.holds signed = decide (p.signed = signed) := by
  simp [FedProcess.holds, h]

theorem get_of_claimLasts (h : ClaimLasts server signed s.claims) {v : Nat}
    (hva : v < signed.timestampMs + 301000) (hti : s.now < v + claimWindow) :
    s.claims.get s.now (claimKey server signed) = some () := by
  obtain ⟨deadline, hce, hd⟩ := h
  refine get_of_le hce ?_
  have hw : claimWindow = 604199000 := rfl
  omega

theorem claimLasts_set {v : Nat} (hle : v ≤ s.now) (hva : signed.timestampMs ≤ v + 300000) :
    ClaimLasts server signed (s.claims.set s.now (claimKey server signed) () (some federationMsgDedupTtlSecs)) := by
  refine ⟨s.now + federationMsgDedupTtlSecs * 1000, by simp [Keyspace.set], ?_⟩
  rw [show federationMsgDedupTtlSecs = 604800 from rfl]
  omega

theorem ClaimLasts.of_eq {claims claims' : Keyspace Unit} (h : ClaimLasts server signed claims)
    (heq : claims' (claimKey server signed) = claims (claimKey server signed)) :
    ClaimLasts server signed claims' := by
  obtain ⟨deadline, hce, hd⟩ := h
  exact ⟨deadline, heq.trans hce, hd⟩

namespace OnceInvariant

variable (hinv : OnceInvariant server signed s)

include hinv

theorem replace {next : Option FedProcess} (hp : s.pool[i]? = some p)
    (hpo : t.pool = Machine.replace s.pool i next) (hno : t.now = s.now)
    (hn : ∀ q ∈ next, q.signed = p.signed ∧ q.phase.validatedAt = none)
    (hh : 0 < holders signed t → ClaimLasts server signed t.claims)
    (hon : holders signed t ≤ 1) : OnceInvariant server signed t where
  keyed := by
    intro q hq
    rw [hpo] at hq
    rcases mem_or_mem_of_replace hq with hq | hq
    · exact hinv.keyed q hq
    · rw [(hn q hq).1]
      exact hinv.keyed p (List.mem_of_getElem? hp)
  fresh := by
    intro q hq hsi v hv
    rw [hpo] at hq
    rw [hno]
    rcases mem_or_mem_of_replace hq with hq | hq
    · exact hinv.fresh q hq hsi v hv
    · rw [(hn q hq).2] at hv
      cases hv
  held := hh
  once := hon

theorem replace_of_le {next : Option FedProcess} (hp : s.pool[i]? = some p)
    (hpoo : t.pool = Machine.replace s.pool i next) (hn : t.now = s.now)
    (hne : ∀ q ∈ next, q.signed = p.signed ∧ q.phase.validatedAt = none) (hcl : 0 < holders signed t →
      t.claims (claimKey server signed) = s.claims (claimKey server signed))
    (hle : holders signed t ≤ holders signed s) : OnceInvariant server signed t := by
  refine hinv.replace hp hpoo hn hne ?_ (hle.trans hinv.once)
  intro hpo
  exact (hinv.held (lt_of_lt_of_le hpo hle)).of_eq (hcl hpo)

theorem answer (hp : s.pool[i]? = some p) (answer : Except FedHttpErr FederationResponse) :
    OnceInvariant server signed (s.answer i p answer) := by
  refine hinv.replace_of_le hp rfl rfl (by simp) (fun _ => rfl) ?_
  have hco := @holders_replace signed s (s.answer i p answer) i p none hp rfl
  simp only [FederationState.answer, toList_none, List.countP_nil] at hco ⊢
  omega

theorem moveOn (hp : s.pool[i]? = some p) (hh : p.phase.validatedAt = none) {phase : FedPhase}
    (hph : phase.validatedAt = none) : OnceInvariant server signed (s.moveOn i p phase) := by
  refine hinv.replace_of_le hp rfl rfl ?_ (fun _ => rfl) ?_
  · rintro q hq
    obtain rfl := some_inj.mp hq
    exact ⟨rfl, hph⟩
  · have hco := @holders_replace signed s (s.moveOn i p phase) i p _ hp rfl
    have hn : ({ p with phase } : FedProcess).phase.validatedAt = none := hph
    simp only [FederationState.moveOn, toList_some, List.countP_singleton, holds_eq hh, holds_eq hn] at hco ⊢
    omega

theorem claimLasts_claimsWith (hp : s.pool[i]? = some p) {v : Nat}
    (hph : p.phase = .claiming v) (hpo : p.signed ≠ signed → 0 < holders signed s) :
    ClaimLasts server signed (s.claimsWith server p.signed) := by
  have hm := List.mem_of_getElem? hp
  by_cases hsi : p.signed = signed
  · obtain ⟨hle, hva, -⟩ := hinv.fresh p hm hsi v (by simp [hph, FedPhase.validatedAt])
    rw [hsi]
    exact claimLasts_set hle hva
  · have hk : claimKey server signed ≠ claimKey server p.signed :=
      fun h => hsi (hinv.keyed p hm h.symm)
    exact (hinv.held (hpo hsi)).of_eq (Function.update_of_ne hk _ _)

theorem claim (hp : s.pool[i]? = some p) {v : Nat} (hph : p.phase = .claiming v) (o : Outcome)
    (hti : p.signed = signed → s.now < v + claimWindow) : OnceInvariant server signed (s.claim server i p o) := by
  have hca := claim_case server s i p o
  have hcl : p.holds signed = false := not_holds_of_claiming hph
  generalize s.claim server i p o = t at hca
  cases hca with
  | refused | duplicate => exact hinv.answer hp _
  | lost e ho =>
    have hco := @holders_replace signed s
      ({ s with claims := s.claimsWith server p.signed }.answer i p (.error e)) i p none hp rfl
    simp only [FederationState.answer, hcl, toList_none, List.countP_nil] at hco ⊢
    refine hinv.replace hp rfl rfl (by simp) (fun hpo => ?_) ?_
    · exact hinv.claimLasts_claimsWith hp hph fun _ => by omega
    · have := hinv.once
      omega
  | claimed hg =>
    have hno : (claimed p.content).validatedAt = none := by
      cases p.content <;> rfl
    have hco : holders signed ({ s with claims := s.claimsWith server p.signed }.moveOn i p
        (claimed p.content)) = holders signed s + if p.signed = signed then 1 else 0 := by
      have h := @holders_replace signed s
        ({ s with claims := s.claimsWith server p.signed }.moveOn i p (claimed p.content)) i p _ hp
        rfl
      have hn : ({ p with phase := claimed p.content } : FedProcess).phase.validatedAt = none :=
        hno
      simp only [FederationState.moveOn, hcl, toList_some, List.countP_singleton,
        holds_eq hn, Bool.false_eq_true, if_false, decide_eq_true_eq] at h ⊢
      omega
    have hon := hinv.once
    refine hinv.replace hp rfl rfl ?_ (fun hpo => ?_) ?_
    · intro q hq
      obtain rfl := some_inj.mp hq
      exact ⟨rfl, hno⟩
    · refine hinv.claimLasts_claimsWith hp hph fun hne => ?_
      rwa [hco, if_neg hne] at hpo
    · rw [hco]
      by_cases hsi : p.signed = signed
      · -- A holder's claim would still be there, and the presentation found none.
        have hz : holders signed s = 0 := by
          by_contra hne
          obtain ⟨-, -, hva⟩ := hinv.fresh p (List.mem_of_getElem? hp) hsi v (by simp [hph, FedPhase.validatedAt])
          have hf := get_of_claimLasts (hinv.held (Nat.pos_of_ne_zero hne)) hva (hti hsi)
          rw [hsi, hf] at hg
          cases hg
        rw [if_pos hsi, hz]
      · rw [if_neg hsi]
        exact hon

theorem of_eq (hpo : t.pool = s.pool) (hn : t.now = s.now) (hcl : t.claims = s.claims)
    (hdi : t.dispatched = s.dispatched) : OnceInvariant server signed t := by
  obtain ⟨hke, hf, hh, hon⟩ := hinv
  constructor
  · rwa [hpo]
  · rwa [hpo, hn]
  · rwa [holders, hpo, hdi, hcl]
  · rwa [holders, hpo, hdi]

theorem resolve (hp : s.pool[i]? = some p) (hph : p.phase.validatedAt = none)
    (sealedBytes : Bytes) (inputs : SealedInputs) (o : Outcome) :
    OnceInvariant server signed (s.resolve server i p sealedBytes inputs o) := by
  have hca := resolve_case server s i p sealedBytes inputs o
  generalize s.resolve server i p sealedBytes inputs o = t at hca
  cases hca with
  | failed e => exact hinv.moveOn hp hph rfl
  | dropped | replay => exact hinv.answer hp _
  | routed req tag tags hr =>
    have hta : OnceInvariant server signed { s with tags } := hinv.of_eq rfl rfl rfl rfl
    exact hta.moveOn hp hph rfl

theorem dispatch (hp : s.pool[i]? = some p) (hph : p.phase.validatedAt = none)
    (env : MessageEnvelope) (tag : Bytes) (inputs : DispatchInputs) :
    OnceInvariant server signed (s.dispatch server i p env tag inputs) := by
  have hca := dispatch_case server s i p env tag inputs
  generalize s.dispatch server i p env tag inputs = t at hca
  cases hca with
  | ok store hca =>
    refine hinv.replace_of_le hp rfl rfl (by simp) (fun _ => rfl) ?_
    have hco := @holders_replace signed s ({ s with
      store, dispatched := s.dispatched ++ [FedDispatch.mk p.signed env] }.answer i p
        (.ok ⟨.accepted, env.messageId⟩)) i p none hp rfl
    simp only [FederationState.answer, holds_eq hph, toList_none, List.countP_nil,
      List.countP_append, List.countP_singleton] at hco ⊢
    omega
  | failed store e phase hs hn =>
    have hst : OnceInvariant server signed { s with store } := hinv.of_eq rfl rfl rfl rfl
    refine hst.moveOn hp hph ?_
    rcases hn with rfl | rfl <;> rfl

theorem release (hp : s.pool[i]? = some p) (hph : p.phase.validatedAt = none) (error : String)
    (o : Outcome) : OnceInvariant server signed (s.release server i p error o) := by
  have hco := @holders_replace signed s (s.release server i p error o) i p none hp rfl
  simp only [FederationState.release, FederationState.answer, holds_eq hph, toList_none,
    List.countP_nil, decide_eq_true_eq] at hco ⊢
  refine hinv.replace_of_le hp rfl rfl (by simp) (fun hpo => ?_) (by omega)
  have hon := hinv.once
  have hsi : p.signed ≠ signed := by
    intro hsi
    rw [if_pos hsi] at hco
    omega
  have hk : claimKey server signed ≠ claimKey server p.signed :=
    fun h => hsi (hinv.keyed p (List.mem_of_getElem? hp) h.symm)
  dsimp only
  split_ifs
  · rfl
  · exact del_apply_of_ne hk

theorem arrive (hsh : Injective server.sha256)
    (hf : ∀ f ∈ claimFields signed.originServer signed.messageId, Framing.Fits f)
    {request : InboundRequest} {inputs : ReceiveInputs} {content : FedContent}
    (ha : server.accept inputs (s.now / 1000) request = .ok content)
    (hsa : ClaimsInTime server signed s (.arrive request inputs)) : OnceInvariant server signed
      { s with pool := s.pool ++ [⟨server.signedFields request, content, .claiming s.now⟩] } := by
  have hco : holders signed { s with
      pool := s.pool ++ [⟨server.signedFields request, content, .claiming s.now⟩] } =
        holders signed s := by
    simp [holders, FedProcess.holds, FedPhase.validatedAt]
  refine ⟨?_, ?_, ?_, ?_⟩
  · intro q hq hk
    rcases mem_concat hq with hq | rfl
    · exact hinv.keyed q hq hk
    · exact hsa.2 (federationMessageKey_injective hsh hsa.1 hf hk)
  · intro q hq hsi v hv
    rcases mem_concat hq with hq | rfl
    · exact hinv.fresh q hq hsi v hv
    · obtain rfl : s.now = v := some_inj.mp hv
      have hva := validateFederationTimestampAt_ok (accept_ok ha).1
      rw [show federationTimestampMaxSkewSecs = 300 from rfl] at hva
      rw [← show server.signedFields request = signed from hsi, FederatedEnvelope.timestampMs]
      refine ⟨le_rfl, ?_, ?_⟩ <;> omega
  · rw [hco]
    exact hinv.held
  · rw [hco]
    exact hinv.once

end OnceInvariant

theorem onceInvariant_initial : OnceInvariant server signed .initial where
  keyed _ h := by cases h
  fresh _ h := by cases h
  held h := by simp [holders, FederationState.initial] at h
  once := by simp [holders, FederationState.initial]

theorem onceInvariant_step {action : FedAction} (hsh : Injective server.sha256)
    (hf : ∀ f ∈ claimFields signed.originServer signed.messageId, Framing.Fits f)
    (hinv : OnceInvariant server signed s) (hsa : ClaimsInTime server signed s action)
    (hst : FedStep server s action t) : OnceInvariant server signed t := by
  cases hst with
  | tick now hle =>
    refine ⟨hinv.keyed, ?_, hinv.held, hinv.once⟩
    intro q hq hsi v hv
    obtain ⟨hv, hbo⟩ := hinv.fresh q hq hsi v hv
    exact ⟨hv.trans hle, hbo⟩
  | refuse request inputs e => exact hinv.of_eq rfl rfl rfl rfl
  | arrive request inputs content ha => exact hinv.arrive hsh hf ha hsa
  | claim i o p v hp hph =>
    refine hinv.claim hp hph o fun hsi => ?_
    exact hsa p hp hsi v (by simp [hph, FedPhase.validatedAt])
  | resolve i inputs o p sealedBytes hp hph hco =>
    exact hinv.resolve hp (by rw [hph]; rfl) sealedBytes inputs o
  | dispatch i inputs p env tag hp hph =>
    exact hinv.dispatch hp (by rw [hph]; rfl) env tag inputs
  | unmark i o p tag error hp hph =>
    have hta : OnceInvariant server signed
        { s with tags := if o = .failed then s.tags
          else unmarkDeliveryTag server.sha256 s.tags tag } := hinv.of_eq rfl rfl rfl rfl
    exact hta.moveOn hp (by rw [hph]; rfl) rfl
  | release i o p error hp hph => exact hinv.release hp (by rw [hph]; rfl) error o

end

section

variable {server : FederationServer} {signed : FederatedEnvelope} {s t : FederationState}
  {i : Nat} {p : FedProcess}

theorem holder_replace {next : Option FedProcess} (hp : s.pool[i]? = some p)
    (hpo : t.pool = Machine.replace s.pool i next) (hs : s.dispatched ⊆ t.dispatched)
    (hke : p.holds signed = true → (∃ q ∈ next, q.holds signed = true) ∨ ∃ d ∈ t.dispatched, d.signed = signed)
    (h : (∃ q ∈ s.pool, q.holds signed = true) ∨ ∃ d ∈ s.dispatched, d.signed = signed) :
    (∃ q ∈ t.pool, q.holds signed = true) ∨ ∃ d ∈ t.dispatched, d.signed = signed := by
  rcases h with ⟨q, hq, hh⟩ | ⟨d, hd, hsi⟩
  · rcases mem_replace_or_eq next hp hq with hq | rfl
    · exact .inl ⟨q, hpo ▸ hq, hh⟩
    · refine (hke hh).imp_left ?_
      rintro ⟨r, hr, hh⟩
      exact ⟨r, hpo ▸ mem_replace_of_next hr, hh⟩
  · exact .inr ⟨d, hs hd, hsi⟩

namespace AckInvariant

variable (hinv : AckInvariant server signed s)

include hinv

theorem content_replace {next : Option FedProcess} (hp : s.pool[i]? = some p)
    (hn : ∀ q ∈ next, q.signed = p.signed ∧ q.content = p.content ∧
      (q.signed = signed → ∀ env tag, q.phase = .dispatching env tag → Carries server signed env)) :
    ∀ q ∈ Machine.replace s.pool i next, q.signed = signed → ContentOf server signed q.content ∧
      ∀ env tag, q.phase = .dispatching env tag → Carries server signed env := by
  intro q hq hsi
  rcases mem_or_mem_of_replace hq with hq | hq
  · exact hinv.content q hq hsi
  · obtain ⟨heq, hco, hca⟩ := hn q hq
    refine ⟨?_, hca hsi⟩
    rw [hco]
    exact (hinv.content p (List.mem_of_getElem? hp) (heq ▸ hsi)).1

theorem stored_of_subset {streams : Streams} (hs : s.store.streams ⊆ streams) :
    ∀ d ∈ s.dispatched, d.signed = signed → Carries server signed d.env ∧
      Landed server.delivery server.codec streams d.env := by
  intro d hd hsi
  obtain ⟨hca, hl⟩ := hinv.stored d hd hsi
  exact ⟨hca, hl.mono hs⟩

theorem moveOn (hp : s.pool[i]? = some p) {phase : FedPhase} (hph : phase.validatedAt = none)
    (hca : p.signed = signed → ∀ env tag, phase = .dispatching env tag → Carries server signed env)
    {claims tags : Keyspace Unit} {store : Store} (hs : s.store.streams ⊆ store.streams)
    (hcl : p.signed ≠ signed → claims (claimKey server signed) = s.claims (claimKey server signed)) :
    AckInvariant server signed ({ s with claims, tags, store }.moveOn i p phase) where
  claimed h := by
    by_cases hsi : p.signed = signed
    · refine .inl ⟨_, mem_replace_of_next rfl, ?_⟩
      simp [FedProcess.holds, hsi, hph]
    · have hn : p.holds signed = false := by simp [FedProcess.holds, hsi]
      simp only [FederationState.moveOn, hcl hsi] at h
      exact @holder_replace signed s _ i p _ hp rfl (Subset.refl _) (by simp [hn])
        (hinv.claimed h)
  content := by
    refine hinv.content_replace hp ?_
    intro q hq
    obtain rfl := some_inj.mp hq
    exact ⟨rfl, rfl, hca⟩
  stored := hinv.stored_of_subset hs
  answered := hinv.answered

theorem answer (hp : s.pool[i]? = some p) {claims : Keyspace Unit}
    (answer : Except FedHttpErr FederationResponse) (hcl : (claims (claimKey server signed)).isSome →
      (s.claims (claimKey server signed)).isSome ∧ p.holds signed = false)
    (hok : p.signed = signed → answer.isOk = true → ∃ d ∈ s.dispatched, d.signed = signed) :
    AckInvariant server signed ({ s with claims }.answer i p answer) where
  claimed h := by
    obtain ⟨hbe, hn⟩ := hcl h
    exact @holder_replace signed s _ i p none hp rfl (Subset.refl _) (by simp [hn])
      (hinv.claimed hbe)
  content := hinv.content_replace hp (by simp)
  stored := hinv.stored
  answered := by
    intro a ha hsi
    rcases mem_concat ha with ha | rfl
    · exact hinv.answered a ha hsi
    · exact hok hsi

theorem claim (hon : OnceInvariant server signed s) (hp : s.pool[i]? = some p) {v : Nat}
    (hph : p.phase = .claiming v) (o : Outcome)
    (hsa : p.signed = signed → o ≠ .lost ∧ s.pool.all (!·.holds signed)) :
    AckInvariant server signed (s.claim server i p o) := by
  have hca := claim_case server s i p o
  have hn : p.holds signed = false := not_holds_of_claiming hph
  have hot : p.signed ≠ signed → s.claimsWith server p.signed (claimKey server signed) =
      s.claims (claimKey server signed) := by
    intro hne
    refine Function.update_of_ne (fun h => hne ?_) _ _
    exact hon.keyed p (List.mem_of_getElem? hp) h.symm
  generalize s.claim server i p o = t at hca
  cases hca with
  | refused e => exact hinv.answer hp _ (fun h => ⟨h, hn⟩) (fun _ hok => by cases hok)
  | lost e ho =>
    have hne : p.signed ≠ signed := fun hsi => (hsa hsi).1 ho
    exact hinv.answer hp _ (fun h => ⟨hot hne ▸ h, hn⟩) (fun _ hok => by cases hok)
  | claimed hg =>
    refine hinv.moveOn hp ?_ ?_ (Subset.refl _) hot
    · cases p.content <;> rfl
    · -- A regular message goes on to its dispatch with the envelope it arrived with.
      intro hsi env tag hdi
      have hco := (hinv.content p (List.mem_of_getElem? hp) hsi).1
      cases hc : p.content with
      | sealed sealedBytes => simp [hc, FederationState.claimed] at hdi
      | message env' =>
        simp only [hc, FederationState.claimed, FedPhase.dispatching.injEq] at hdi
        rw [hc, hdi.1] at hco
        exact .inl hco
  | duplicate hg =>
    refine hinv.answer hp _ (fun h => ⟨h, hn⟩) ?_
    intro hsi _
    -- No presentation holds the claim that was found, so the envelope was dispatched.
    rw [hsi] at hg
    rcases hinv.claimed (isSome_of_isSome_get hg) with ⟨q, hq, hh⟩ | hd
    · have hno := List.all_eq_true.mp (hsa hsi).2 q hq
      simp [hh] at hno
    · exact hd

theorem resolve (hp : s.pool[i]? = some p) {sealedBytes : Bytes}
    (hco : p.content = .sealed sealedBytes) (inputs : SealedInputs) (o : Outcome)
    (hsa : p.signed = signed → Routed server s inputs p.content) :
    AckInvariant server signed (s.resolve server i p sealedBytes inputs o) := by
  have hca := resolve_case server s i p sealedBytes inputs o
  have han : p.signed ≠ signed → ∀ r, AckInvariant server signed (s.answer i p r) := by
    intro hne r
    exact hinv.answer hp r (fun h => ⟨h, by simp [FedProcess.holds, hne]⟩) (fun h => absurd h hne)
  generalize s.resolve server i p sealedBytes inputs o = t at hca
  cases hca with
  | failed e => exact hinv.moveOn hp rfl (by simp) (Subset.refl _) (fun _ => rfl)
  | dropped hr =>
    refine han (fun hsi => ?_) _
    simpa [Routed, NotDropped, hco, hr] using hsa hsi
  | replay req tag hr hm =>
    refine han (fun hsi => ?_) _
    have hro := hsa hsi
    simp only [Routed, NotDropped, hco, hr] at hro
    exact hro.elim hm.1 fun hn => hn hm.2
  | routed req tag tags hr =>
    refine hinv.moveOn hp rfl ?_ (Subset.refl _) (fun _ => rfl)
    intro hsi env tag' hdi
    have hby := (hinv.content p (List.mem_of_getElem? hp) hsi).1
    rw [hco] at hby
    cases hdi
    exact .inr ⟨sealedBytes, hby, congrArg some (resolveSealed_ok hr)⟩

theorem dispatch (hp : s.pool[i]? = some p) {env : MessageEnvelope} {tag : Bytes}
    (hph : p.phase = .dispatching env tag) (inputs : DispatchInputs)
    (hsa : p.signed = signed → NotSkipped server s inputs p.phase) :
    AckInvariant server signed (s.dispatch server i p env tag inputs) := by
  have hca := dispatch_case server s i p env tag inputs
  generalize s.dispatch server i p env tag inputs = t at hca
  cases hca with
  | ok store hca =>
    have hs := subset_of_case hca
    have hne : p.signed = signed →
        Carries server signed env ∧ Landed server.delivery server.codec store.streams env := by
      intro hsi
      refine ⟨(hinv.content p (List.mem_of_getElem? hp) hsi).2 env tag hph, ?_⟩
      have hsk := hsa hsi
      simp only [NotSkipped, hph] at hsk
      cases hca with
      | marked hu hk => exact absurd hk (hsk hu).1
      | blocked hu hb => simp [hsk hu] at hb
      | landed streams marks hs hm hl hma => exact hl
    have hse : p.signed = signed → ∃ d ∈ s.dispatched ++ [FedDispatch.mk p.signed env],
        d.signed = signed := fun hsi => ⟨⟨p.signed, env⟩, by simp, hsi⟩
    constructor
    · intro h
      refine @holder_replace signed s _ i p none hp rfl (List.subset_append_left _ _) ?_ (hinv.claimed h)
      intro hh
      simp only [FedProcess.holds, decide_eq_true_eq] at hh
      exact .inr (hse hh.1)
    · exact hinv.content_replace hp (by simp)
    · intro d hd hsi
      rcases mem_concat hd with hd | rfl
      · exact hinv.stored_of_subset hs d hd hsi
      · exact hne hsi
    · intro a ha hsi hok
      rcases mem_concat ha with ha | rfl
      · obtain ⟨d, hd, heq⟩ := hinv.answered a ha hsi hok
        exact ⟨d, List.mem_append_left _ hd, heq⟩
      · exact hse hsi
  | failed store e phase hs hn =>
    refine hinv.moveOn hp ?_ ?_ hs (fun _ => rfl)
    · rcases hn with rfl | rfl <;> rfl
    · rcases hn with rfl | rfl <;> simp

theorem release (hon : OnceInvariant server signed s) (hp : s.pool[i]? = some p) (error : String)
    (o : Outcome) (hsa : p.signed = signed → o ≠ .failed) :
    AckInvariant server signed (s.release server i p error o) := by
  refine hinv.answer hp _ (fun h => ?_) (fun _ hok => by cases hok)
  by_cases hsi : p.signed = signed
  · -- The claim is gone.
    rw [if_neg (hsa hsi), hsi] at h
    simp [Keyspace.del] at h
  · refine ⟨?_, by simp [FedProcess.holds, hsi]⟩
    have hk : claimKey server signed ≠ claimKey server p.signed :=
      fun heq => hsi (hon.keyed p (List.mem_of_getElem? hp) heq.symm)
    split_ifs at h
    · exact h
    · rwa [del_apply_of_ne hk] at h

end AckInvariant

theorem ackInvariant_initial : AckInvariant server signed .initial where
  claimed h := by cases h
  content _ h := by cases h
  stored _ h := by cases h
  answered _ h := by cases h

theorem ackInvariant_step {action : FedAction} (hon : OnceInvariant server signed s)
    (hinv : AckInvariant server signed s) (hsa : AnswersAfterDispatch server signed s action)
    (hst : FedStep server s action t) : AckInvariant server signed t := by
  cases hst with
  | tick now hle => exact ⟨hinv.claimed, hinv.content, hinv.stored, hinv.answered⟩
  | refuse request inputs e =>
    refine ⟨hinv.claimed, hinv.content, hinv.stored, ?_⟩
    intro a ha hsi hok
    rcases mem_concat ha with ha | rfl
    · exact hinv.answered a ha hsi hok
    · cases hok
  | arrive request inputs content hac =>
    refine ⟨fun h => (hinv.claimed h).imp_left ?_, ?_, hinv.stored, hinv.answered⟩
    · rintro ⟨q, hq, hh⟩
      exact ⟨q, List.mem_append_left _ hq, hh⟩
    · intro q hq hsi
      rcases mem_concat hq with hq | rfl
      · exact hinv.content q hq hsi
      · exact ⟨hsi ▸ (accept_ok hac).2, by simp⟩
  | claim i o p v hp hph => exact hinv.claim hon hp hph o (hsa p hp)
  | resolve i inputs o p sealedBytes hp hph hco =>
    exact hinv.resolve hp hco inputs o (hsa p hp)
  | dispatch i inputs p env tag hp hph => exact hinv.dispatch hp hph inputs (hsa p hp)
  | unmark i o p tag error hp hph =>
    exact hinv.moveOn hp rfl (by simp) (Subset.refl _) (fun _ => rfl)
  | release i o p error hp hph => exact hinv.release hon hp error o (hsa p hp)

/-- **In every run in which an envelope is claimed in time and answered after its dispatch, it is
dispatched at most once, and what was answered as accepted or as a duplicate is in a mailbox.** -/
theorem presentations_dispatch_once {actions : List FedAction} (hsha : Injective server.sha256)
    (hfits : ∀ f ∈ claimFields signed.originServer signed.messageId, Framing.Fits f)
    (hsafe : Along (FederationState.step server) (fun s action => ClaimsInTime server signed s action ∧
        AnswersAfterDispatch server signed s action) .initial actions)
    (hrun : run (FederationState.step server) .initial actions = some s) :
    AtMostOnce signed s ∧ AnsweredDispatched server signed s := by
  have hinv : OnceInvariant server signed s ∧ AckInvariant server signed s := by
    refine run_invariant
      (P := fun s => OnceInvariant server signed s ∧ AckInvariant server signed s) ?_
      ⟨onceInvariant_initial, ackInvariant_initial⟩ hsafe hrun
    rintro s action t ⟨honce, hack⟩ ⟨htime, hanswers⟩ hstep
    have hstep := fedStep_of_step hstep
    exact ⟨onceInvariant_step hsha hfits honce htime hstep, ackInvariant_step honce hack hanswers hstep⟩
  obtain ⟨honce, hack⟩ := hinv
  refine ⟨(Nat.le_add_left _ _).trans honce.once, ?_⟩
  intro a ha hsigned hok
  obtain ⟨d, hd, heq⟩ := hack.answered a ha hsigned hok
  exact ⟨d, hd, heq, hack.stored d hd heq⟩

end

section

def exampleServer : FederationServer where
  enabled := true
  instanceDomain := "here"
  maxRequestsPerOriginPerHour := 0
  delivery := ⟨"delivery", true⟩
  codec := unaryCodec
  sha256 := id
  encodeBase64 := Framing.hexEncode
  decodeBase64 text := some (utf8 text)
  verify _ _ _ := true
  decodeInner _ := none

def exampleRequest : InboundRequest :=
  .message ⟨"m1", "alice@there", "bob", "hi", "there", 0, "6869", some "signature"⟩

def exampleSigned : FederatedEnvelope := exampleServer.signedFields exampleRequest

def present : FedAction := .arrive exampleRequest ⟨some true, .ok "key"⟩

def FederationState.statuses (s : FederationState) : List (Option FederationStatus) :=
  s.answered.map fun a => a.answer.toOption.map FederationResponse.status

/-- The first presentation fails and releases its claim; the second is dispatched and the third
answered as a duplicate. -/
def failRetryDuplicate : List FedAction :=
  [present, .claim 0 .ok, .dispatch 0 (userWrite .failed), .release 0 .ok,
    present, .claim 0 .ok, .dispatch 0 (userWrite .ok), present, .claim 0 .ok]

def duplicateDuringFailure : List FedAction :=
  [present, present, .claim 0 .ok, .claim 1 .ok, .dispatch 0 (userWrite .failed), .release 0 .ok]

theorem failRetryDuplicate_dispatches_once :
    ∃ t, run (FederationState.step exampleServer) .initial failRetryDuplicate = some t ∧
      t.statuses = [none, some .accepted, some .duplicate] ∧
      AtMostOnce exampleSigned t ∧ AnsweredDispatched exampleServer exampleSigned t :=
  reaches_with (by decide +kernel) fun t hrun _ => @presentations_dispatch_once exampleServer exampleSigned t
    failRetryDuplicate Function.injective_id (by decide +kernel) (by decide +kernel) hrun

/-- The second presentation is answered as a duplicate, and nothing was ever dispatched. -/
theorem duplicate_before_failed_dispatch :
    ∃ t, run (FederationState.step exampleServer) .initial duplicateDuringFailure = some t ∧
      t.pool = [] ∧ t.statuses = [some .duplicate, none] ∧ t.store.streams = [] ∧
      ¬ AnsweredDispatched exampleServer exampleSigned t := by
  have hend : (run (FederationState.step exampleServer) .initial
      duplicateDuringFailure).map (fun t => (t.pool.isEmpty, t.statuses, t.store.streams.isEmpty,
        t.answered.any fun a => a.signed = exampleSigned ∧ a.answer.isOk)) =
        some (true, [some .duplicate, none], true, true) := by
    decide +kernel
  obtain ⟨t, hrun, hout⟩ := map_eq_some_iff.mp hend
  simp only [Prod.mk.injEq, List.isEmpty_iff] at hout
  obtain ⟨hdone, hstatuses, hstreams, hanswered⟩ := hout
  refine ⟨t, hrun, hdone, hstatuses, hstreams, ?_⟩
  intro hall
  obtain ⟨a, ha, hok⟩ := List.any_eq_true.mp hanswered
  obtain ⟨hsigned, hok⟩ := of_decide_eq_true hok
  obtain ⟨d, -, -, -, deviceId, key, -, hmem⟩ := hall a ha hsigned hok
  rw [hstreams] at hmem
  cases hmem

end

end ConstructServer.Messaging
