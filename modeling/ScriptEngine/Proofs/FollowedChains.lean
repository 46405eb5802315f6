import ScriptEngine.Proofs.SkippedActivations

namespace ScriptEngine

/-- What a closure that leads on was made for. -/
inductive ClosureKind
  | await
  | element (combinator : Combinator)
  /-- Settles another promise in the same way. -/
  | resolve
  deriving DecidableEq

namespace ClosureKind

/-- The builtins of this kind that handle a fulfillment. -/
def fulfilling : ClosureKind → List Builtin
  | await =>
    [.asyncFunctionAwaitResolve, .asyncGeneratorAwaitResolve, .asyncGeneratorYieldResolve]
  | element .all => [.promiseAllResolveElement]
  | element .allSettled => [.promiseAllSettledResolveElement]
  | element .any => []
  | resolve => [.capabilityDefaultResolve]

/-- The builtins of this kind that handle a rejection. -/
def rejecting : ClosureKind → List Builtin
  | await => [.asyncFunctionAwaitReject, .asyncGeneratorAwaitReject]
  | element .any => [.promiseAnyRejectElement]
  | _ => []

/-- What a reaction with closures of this kind leads to. -/
def hop? (h : Heap) (r : Reaction) : ClosureKind → Option Hop
  | await => (h.awaitingGenerator? r.fulfillHandler).map .await
  | element .any => some (.element .any r.rejectHandler)
  | element combinator => some (.element combinator r.fulfillHandler)
  | resolve => some (.resolve r.fulfillHandler)

end ClosureKind

namespace Reaction

variable {h : Heap} {r : Reaction} {kind : ClosureKind} {item : Option TraceItem} {q : Value}

/-- One of the handlers is a closure of a kind. -/
def HasKind (h : Heap) (r : Reaction) (kind : ClosureKind) : Prop :=
  h.runsBuiltin r.fulfillHandler kind.fulfilling ∨ h.runsBuiltin r.rejectHandler kind.rejecting

/-- The handlers are not closures of two different kinds. -/
def IsUnmixed (h : Heap) (r : Reaction) : Prop :=
  ∀ kind kind', r.HasKind h kind → r.HasKind h kind' → kind = kind'

/-- What a reaction is for a trace: the item of what waits, if it has one, and the promise that is
settled next. -/
inductive LeadsTo (h : Heap) (r : Reaction) : Option TraceItem → Value → Prop
  | asyncFunction {g : Generator}
    (closure : h.runsBuiltin r.fulfillHandler ClosureKind.await.fulfilling)
    (waits : h.awaitingGenerator? r.fulfillHandler = some g) (suspended : g.isSuspended)
    (kind : g.kind = .asyncFunction) : LeadsTo h r (some (.suspended g)) g.promise
  /-- The oldest request is the one that is worked on. -/
  | asyncGenerator {g : Generator} {oldest : Value} {newer : List Value}
    (closure : h.runsBuiltin r.fulfillHandler ClosureKind.await.fulfilling)
    (waits : h.awaitingGenerator? r.fulfillHandler = some g) (suspended : g.isSuspended)
    (kind : g.kind = .asyncGenerator) (queue : g.queue = oldest :: newer) :
    LeadsTo h r (some (.suspended g)) oldest
  | fulfillElement {combinator : Combinator} {combined : Value}
    (closure : h.runsBuiltin r.fulfillHandler (ClosureKind.element combinator).fulfilling)
    (capability : h.combinedPromise? r.fulfillHandler = some combined) :
    LeadsTo h r (some (.element combinator r.fulfillHandler)) combined
  | rejectElement {combinator : Combinator} {combined : Value}
    (closure : h.runsBuiltin r.rejectHandler (ClosureKind.element combinator).rejecting)
    (capability : h.combinedPromise? r.rejectHandler = some combined) :
    LeadsTo h r (some (.element combinator r.rejectHandler)) combined
  | resolve {context : Context}
    (closure : h.runsBuiltin r.fulfillHandler ClosureKind.resolve.fulfilling)
    (slot : h.contextOf? r.fulfillHandler = some context) : LeadsTo h r none context.promise
  | derived {p : Promise} (plain : ∀ kind, ¬r.HasKind h kind)
    (derived : h.promise? r.derived = some p) : LeadsTo h r none r.derived
  /-- The promise of a capability may be anything. -/
  | capability {c : Capability} (plain : ∀ kind, ¬r.HasKind h kind)
    (derived : h.capability? r.derived = some c) : LeadsTo h r none c.promise

instance (h : Heap) (r : Reaction) (kind : ClosureKind) : Decidable (r.HasKind h kind) :=
  inferInstanceAs (Decidable (_ ∨ _))

theorem hasKind_await : r.HasKind h .await ↔
    (h.isAwaitFulfill r.fulfillHandler || h.isAwaitReject r.rejectHandler) = true :=
  (Bool.or_eq_true _ _).to_iff.symm

theorem runsBuiltin_nil (h : Heap) (function : Value) : h.runsBuiltin function [] = false := by
  unfold Heap.runsBuiltin
  cases h.function? function with
  | none => rfl
  | some f => cases hb : f.code.builtin <;> simp [hb]

theorem hasKind_fulfilling (hkind : kind.rejecting = []) :
    r.HasKind h kind ↔ h.runsBuiltin r.fulfillHandler kind.fulfilling := by
  rw [HasKind, hkind, runsBuiltin_nil]
  exact or_iff_left Bool.false_ne_true

theorem hasKind_rejecting (hkind : kind.fulfilling = []) :
    r.HasKind h kind ↔ h.runsBuiltin r.rejectHandler kind.rejecting := by
  rw [HasKind, hkind, runsBuiltin_nil]
  exact or_iff_right Bool.false_ne_true

/-- The kinds in the order in which they are tried. -/
theorem ofReaction?_eq (h : Heap) (r : Reaction) : Hop.ofReaction? h r =
    if r.HasKind h .await then ClosureKind.await.hop? h r
    else if r.HasKind h (.element .all) then (ClosureKind.element .all).hop? h r
    else if r.HasKind h (.element .allSettled) then (ClosureKind.element .allSettled).hop? h r
    else if r.HasKind h (.element .any) then (ClosureKind.element .any).hop? h r
    else if r.HasKind h .resolve then ClosureKind.resolve.hop? h r
    else some (.derive r.derived) := by
  have hall : r.HasKind h (.element .all) ↔ _ := hasKind_fulfilling rfl
  have hallSettled : r.HasKind h (.element .allSettled) ↔ _ := hasKind_fulfilling rfl
  have hany : r.HasKind h (.element .any) ↔ _ := hasKind_rejecting rfl
  have hresolve : r.HasKind h .resolve ↔ _ := hasKind_fulfilling rfl
  simp only [hasKind_await, hall, hallSettled, hany, hresolve]
  rfl

/-- The order does not matter for reactions that are not mixed. -/
theorem ofReaction?_of_hasKind (hunmixed : r.IsUnmixed h) (hkind : r.HasKind h kind) :
    Hop.ofReaction? h r = kind.hop? h r := by
  have hother : ∀ kind', kind' ≠ kind → ¬r.HasKind h kind' :=
    fun kind' hne hkind' => hne (hunmixed _ _ hkind' hkind)
  rw [ofReaction?_eq]
  cases kind with
  | await => rw [if_pos hkind]
  | element combinator =>
    rw [if_neg (hother .await nofun)]
    cases combinator with
    | all => rw [if_pos hkind]
    | allSettled => rw [if_neg (hother (.element .all) nofun), if_pos hkind]
    | any =>
      rw [if_neg (hother (.element .all) nofun), if_neg (hother (.element .allSettled) nofun),
        if_pos hkind]
  | resolve =>
    rw [if_neg (hother .await nofun), if_neg (hother (.element _) nofun),
      if_neg (hother (.element _) nofun), if_neg (hother (.element _) nofun), if_pos hkind]

theorem ofReaction?_plain (hplain : ∀ kind, ¬r.HasKind h kind) :
    Hop.ofReaction? h r = some (.derive r.derived) := by
  simp only [ofReaction?_eq, hplain, if_false]

/-- What a reaction leads to is a hop to that promise; only what is no promise is not gone on to. -/
theorem LeadsTo.hop (hunmixed : r.IsUnmixed h) (hleads : r.LeadsTo h item q) :
    ∃ hop, Hop.ofReaction? h r = some hop ∧ hop.item? = item ∧ hop.isSound ∧
      (hop.next? h = some q ∨ hop.next? h = none ∧ h.promise? q = none) := by
  cases hleads with
  | @asyncFunction g closure waits suspended kind =>
    refine ⟨.await g, ?_, rfl, suspended, .inl ?_⟩
    · rw [ofReaction?_of_hasKind hunmixed (.inl closure), ClosureKind.hop?, waits, Option.map_some]
    · rw [Hop.next?, Generator.nextPromise?, kind]
  | @asyncGenerator g oldest newer closure waits suspended kind queue =>
    refine ⟨.await g, ?_, rfl, suspended, .inl ?_⟩
    · rw [ofReaction?_of_hasKind hunmixed (.inl closure), ClosureKind.hop?, waits, Option.map_some]
    · simp only [Hop.next?, Generator.nextPromise?, kind, queue, List.head?_cons]
  | @fulfillElement combinator combined closure capability =>
    refine ⟨.element combinator r.fulfillHandler, ?_, rfl, rfl, .inl capability⟩
    rw [ofReaction?_of_hasKind hunmixed (.inl closure)]
    cases combinator with
    | any => exact absurd closure (by simp [ClosureKind.fulfilling, runsBuiltin_nil])
    | all => rfl
    | allSettled => rfl
  | @rejectElement combinator combined closure capability =>
    refine ⟨.element combinator r.rejectHandler, ?_, rfl, rfl, .inl capability⟩
    rw [ofReaction?_of_hasKind hunmixed (.inr closure)]
    cases combinator with
    | any => rfl
    | all => exact absurd closure (by simp [ClosureKind.rejecting, runsBuiltin_nil])
    | allSettled => exact absurd closure (by simp [ClosureKind.rejecting, runsBuiltin_nil])
  | @resolve context closure slot =>
    refine ⟨.resolve r.fulfillHandler, ?_, rfl, rfl, .inl ?_⟩
    · rw [ofReaction?_of_hasKind hunmixed (.inl closure), ClosureKind.hop?]
    · rw [Hop.next?, slot, Option.map_some]
  | @derived p plain derived =>
    refine ⟨.derive r.derived, ofReaction?_plain plain, rfl, rfl, .inl ?_⟩
    simp [Hop.next?, Heap.derivedPromise?, derived]
  | @capability c plain derived =>
    refine ⟨.derive r.derived, ofReaction?_plain plain, rfl, rfl, ?_⟩
    have hno : h.promise? r.derived = none := by
      unfold Heap.capability? at derived
      unfold Heap.promise?
      cases ho : h.object? r.derived with
      | none => rfl
      | some o => cases o <;> simp [ho] at derived ⊢
    cases hq : h.promise? c.promise with
    | none => exact .inr ⟨by simp [Hop.next?, Heap.derivedPromise?, hno, derived, hq], rfl⟩
    | some p => exact .inl (by simp [Hop.next?, Heap.derivedPromise?, hno, derived, hq])

end Reaction

namespace Heap

/-- No single reaction waits for the value: it is no pending promise, or one with no reaction or
with several. -/
def EndsChain (h : Heap) (v : Value) : Prop :=
  ∀ p, h.promise? v = some p → p.isPending → p.reactions.length ≠ 1

/-- From a promise on each promise has one reaction, which leads to the next; these are the items of
what waits. -/
inductive AwaitChain (h : Heap) : Value → List TraceItem → Prop
  | ends {v : Value} (hv : h.EndsChain v) : AwaitChain h v []
  | hop {v q : Value} {p : Promise} {r : Reaction} {item : Option TraceItem}
    {items : List TraceItem} (hv : h.promise? v = some p) (pending : p.isPending)
    (only : p.reactions = [r]) (unmixed : r.IsUnmixed h) (leads : r.LeadsTo h item q)
    (rest : AwaitChain h q items) : AwaitChain h v (item.toList ++ items)

variable {h : Heap} {v : Value} {items : List TraceItem}

theorem EndsChain.ofPromise? (hv : h.EndsChain v) : Hop.ofPromise? h v = none := by
  cases hp : h.promise? v with
  | none => rw [Hop.ofPromise?, hp]
  | some p =>
    have hends := hv p hp
    simp only [Hop.ofPromise?, hp]
    split
    case h_1 hpending hone => exact absurd (congrArg List.length hone) (hends hpending)
    case h_2 => rfl

theorem AwaitChain.eq_nil (hchain : h.AwaitChain v items) (hv : h.promise? v = none) :
    items = [] := by
  cases hchain with
  | ends => rfl
  | hop hp => rw [hv] at hp; cases hp

end Heap

namespace TraceItem

theorem isAsync_sites {heap : Heap} {intrinsics : Intrinsics} {seenStrict : Bool}
    {items : List TraceItem} (hpassive : ∀ item ∈ items, item.isActivation = false)
    {site : CallSite} (hsite : site ∈ sites heap intrinsics seenStrict items) : site.isAsync := by
  induction items generalizing seenStrict with
  | nil => exact absurd hsite List.not_mem_nil
  | cons item items ih =>
    rw [List.forall_mem_cons] at hpassive
    rw [sites] at hsite
    obtain rfl | hsite := List.mem_cons.mp hsite
    · cases item with
      | activation a => cases hpassive.1
      | suspended g => rfl
      | element combinator closure => rfl
    · exact ih hpassive.2 hsite

end TraceItem

namespace TraceBuilder

variable {h : Heap} {intrinsics : Intrinsics} {b added : TraceBuilder} {v : Value}
  {items : List TraceItem} {o : TraceOptions}

/-- Following what waits for a promise ends, with this builder: there is no bound on the hops. -/
inductive Follows (h : Heap) (intrinsics : Intrinsics) :
    Value → TraceBuilder → TraceBuilder → Prop
  | full {v : Value} {b : TraceBuilder} (hfull : b.isFull) : Follows h intrinsics v b b
  | ends {v : Value} {b : TraceBuilder} (hroom : b.isFull = false)
    (hv : Hop.ofPromise? h v = none) : Follows h intrinsics v b b
  | last {v : Value} {b added : TraceBuilder} {hop : Hop} (hroom : b.isFull = false)
    (hv : Hop.ofPromise? h v = some hop) (hadd : hop.addTo h intrinsics b = .ok added)
    (hnext : hop.next? h = none) : Follows h intrinsics v b added
  | on {v q : Value} {b next added : TraceBuilder} {hop : Hop} (hroom : b.isFull = false)
    (hv : Hop.ofPromise? h v = some hop) (hadd : hop.addTo h intrinsics b = .ok next)
    (hnext : hop.next? h = some q) (rest : Follows h intrinsics q next added) :
    Follows h intrinsics v b added

theorem Follows.followFor_eq (hf : Follows h intrinsics v b added) :
    ∃ n, ∀ m ≥ n, followFor h intrinsics m v b = .ok added := by
  induction hf with
  | full hfull => exact ⟨0, fun _ _ => followFor_full hfull⟩
  | ends hroom hv =>
    refine ⟨1, fun m hm => ?_⟩
    obtain ⟨m, rfl⟩ := Nat.exists_eq_add_of_le' hm
    simp only [followFor, hroom, hv, Bool.false_eq_true, if_false]
  | last hroom hv hadd hnext =>
    refine ⟨1, fun m hm => ?_⟩
    obtain ⟨m, rfl⟩ := Nat.exists_eq_add_of_le' hm
    simp only [followFor, hroom, hv, hadd, hnext, Bool.false_eq_true, if_false]
    rfl
  | on hroom hv hadd hnext _ ih =>
    obtain ⟨n, hn⟩ := ih
    refine ⟨n + 1, fun m hm => ?_⟩
    obtain ⟨m, rfl⟩ := Nat.exists_eq_add_of_le' ((Nat.le_add_left 1 n).trans hm)
    simp only [followFor, hroom, hv, hadd, hnext, Bool.false_eq_true, if_false]
    exact hn m (by omega)

/-- The bound on the hops of a trace is no other end. -/
theorem Follows.follow_eq (hf : Follows h intrinsics v b added) :
    b.follow h intrinsics v = .ok added := by
  obtain ⟨n, hn⟩ := hf.followFor_eq
  rw [follow_eq_followFor (Nat.le_max_left _ n), hn _ (Nat.le_max_right _ n)]

theorem follows_awaitChain (intrinsics : Intrinsics) (hchain : h.AwaitChain v items)
    (b : TraceBuilder) : Follows h intrinsics v b (b.addItems h intrinsics items) := by
  induction hchain generalizing b with
  | @ends v hv =>
    cases hfull : b.isFull with
    | true => exact .full hfull
    | false => exact .ends hfull hv.ofPromise?
  | @hop v q p r item items hv pending only unmixed leads rest ih =>
    cases hfull : b.isFull with
    | true =>
      rw [addItems_full hfull]
      exact .full hfull
    | false =>
      obtain ⟨hop, hhop, rfl, hsound, hnext⟩ := leads.hop unmixed
      have hfrom : Hop.ofPromise? h v = some hop := by
        rw [Hop.ofPromise?, hv]
        simp only [pending, only, hhop]
      have hadd : hop.addTo h intrinsics b = .ok (b.addItems h intrinsics hop.item?.toList) := by
        rw [Hop.addTo_eq, if_pos hsound]
      obtain hnext | ⟨hnext, hq⟩ := hnext
      · rw [addItems_append]
        exact .on hfull hfrom hadd hnext (ih _)
      · rw [rest.eq_nil hq, List.append_nil]
        exact .last hfull hfrom hadd hnext

/-- Nothing in a chain runs. -/
theorem isActivation_awaitChain (hchain : h.AwaitChain v items) :
    ∀ item ∈ items, item.isActivation = false := by
  induction hchain with
  | ends => exact List.forall_mem_nil _
  | hop hv pending only unmixed leads rest ih =>
    obtain ⟨hop, -, rfl, -, -⟩ := leads.hop unmixed
    intro item hitem
    rcases List.mem_append.mp hitem with hitem | hitem
    · exact Hop.isActivation_item (Option.mem_toList.mp hitem)
    · exact ih item hitem

/-- An empty builder follows a chain to its end, and has the sites of the visible items in their
order, as far as the limit goes. -/
theorem follow_awaitChain (intrinsics : Intrinsics) (hchain : h.AwaitChain v items)
    (o : TraceOptions) :
    ∃ b, Follows h intrinsics v (start o) b ∧ (start o).follow h intrinsics v = .ok b ∧
      b.sites = (TraceItem.sites h intrinsics false
        (items.filter (·.isVisible h o.showBuiltins))).take o.limit ∧
      ∀ site ∈ b.sites, site.isAsync := by
  have hpassive := isActivation_awaitChain hchain
  have hsites : ((start o).addItems h intrinsics items).sites = (TraceItem.sites h intrinsics false
      (items.filter (·.isVisible h o.showBuiltins))).take o.limit := by
    rw [addItems_start, sitesOf, TraceItem.unskipped_passive]
    · rfl
    · exact fun item hitem => hpassive item (List.mem_of_mem_filter hitem)
  have hfollows := follows_awaitChain intrinsics hchain (start o)
  refine ⟨_, hfollows, hfollows.follow_eq, hsites, fun site hsite => ?_⟩
  rw [hsites] at hsite
  exact TraceItem.isAsync_sites (fun item hitem => hpassive item (List.mem_of_mem_filter hitem))
    (List.mem_of_mem_take hsite)

end TraceBuilder

namespace ThreadState.AwaitExample

/-- Where `checkout` waits. -/
def waiting : Generator := asyncFunction (.object 2) .undefined .suspended

def afterLoad : List TraceItem := [.element .all (.object 9), .suspended waiting]

theorem isUnmixed_of {r : Reaction} (kind : ClosureKind)
    (honly : ∀ k ∈
        [ClosureKind.await, .element .all, .element .allSettled, .element .any, .resolve],
      r.HasKind heap k → k = kind) : r.IsUnmixed heap := by
  have hall : ∀ k, r.HasKind heap k → k = kind := by
    intro k hk
    refine honly k ?_ hk
    cases k with
    | element combinator => cases combinator <;> simp
    | await => simp
    | resolve => simp
  exact fun k k' hk hk' => (hall k hk).trans (hall k' hk').symm

theorem awaitChain_afterLoad : heap.AwaitChain (.object 5) afterLoad := by
  let gathers : Reaction := ⟨.object 9, .undefined, .undefined⟩
  let resumes : Reaction := ⟨.object 10, .undefined, .undefined⟩
  have hgathers : gathers.LeadsTo heap (some (.element .all (.object 9))) (.object 6) :=
    .fulfillElement rfl rfl
  have hresumes : resumes.LeadsTo heap (some (.suspended waiting)) .undefined :=
    .asyncFunction rfl rfl rfl rfl
  have hends : heap.AwaitChain .undefined [] := .ends fun p hp => nomatch hp
  exact .hop rfl rfl rfl (isUnmixed_of (.element .all) (by decide)) hgathers
    (.hop rfl rfl rfl (isUnmixed_of .await (by decide)) hresumes hends)

theorem follow_awaitChain_afterLoad : ∃ b : TraceBuilder,
    (TraceBuilder.start {}).follow heap intrinsics (.object 5) = .ok b ∧
      b.sites.map (·.functionName) = ["Promise.all", "checkout"] := by
  obtain ⟨b, -, hfollow, hsites, -⟩ :=
    TraceBuilder.follow_awaitChain intrinsics awaitChain_afterLoad {}
  refine ⟨b, hfollow, ?_⟩
  rw [hsites]
  rfl

end ThreadState.AwaitExample

end ScriptEngine
