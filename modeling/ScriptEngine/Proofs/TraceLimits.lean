import ScriptEngine.Proofs.AwaitChains
import ScriptEngine.Trace.Capture

namespace ScriptEngine

namespace TraceBuilder

variable {heap : Heap} {intrinsics : Intrinsics} {b b' added : TraceBuilder}

/-- A way to fill builders gave one of them these items, and another one as well, unless only the
first was full by then. -/
structure Replays (heap : Heap) (intrinsics : Intrinsics) (fill : TraceBuilder → Walk TraceBuilder)
    (b added b' : TraceBuilder) (items : List TraceItem) : Prop where
  first : added = b.addItems heap intrinsics items
  again : (added.isFull → (b'.addItems heap intrinsics items).isFull) →
    fill b' = .ok (b'.addItems heap intrinsics items)

theorem addItems_append (b : TraceBuilder) (items later : List TraceItem) :
    b.addItems heap intrinsics (items ++ later) =
      (b.addItems heap intrinsics items).addItems heap intrinsics later :=
  List.foldl_append

namespace Replays

variable {fill rest : TraceBuilder → Walk TraceBuilder} {items later : List TraceItem}

theorem nothing (hstays : ∀ c, fill c = .ok c) (h : fill b = .ok added) :
    Replays heap intrinsics fill b added b' [] where
  first := Except.ok.inj (h.symm.trans (hstays b))
  again _ := hstays b'

theorem of_full (hfull : b.isFull) (hfill : ∀ c : TraceBuilder, c.isFull → fill c = .ok c)
    (h : fill b = .ok added) : Replays heap intrinsics fill b added b' [] := by
  obtain rfl : added = b := Except.ok.inj (h.symm.trans (hfill b hfull))
  exact ⟨rfl, fun h => hfill b' (h hfull)⟩

theorem step (h : Replays heap intrinsics rest (b.addItems heap intrinsics items) added
      (b'.addItems heap intrinsics items) later)
    (hfill : fill b' = if b'.isFull then .ok b' else rest (b'.addItems heap intrinsics items)) :
    Replays heap intrinsics fill b added b' (items ++ later) where
  first := by rw [addItems_append, ← h.first]
  again hfull := by
    rw [addItems_append] at hfull ⊢
    rw [hfill]
    split
    · next hb' => rw [addItems_full hb', addItems_full hb']
    · exact h.again hfull

/-- One filling after the other, where the second leaves a builder that is full alone. -/
theorem andThen {mid : TraceBuilder} (h : Replays heap intrinsics fill b mid b' items)
    (hrest : Replays heap intrinsics rest mid added (b'.addItems heap intrinsics items) later)
    (hstops : mid.isFull → later = []) :
    Replays heap intrinsics (fun c => fill c >>= rest) b added b' (items ++ later) where
  first := by rw [addItems_append, ← h.first, hrest.first]
  again hfull := by
    rw [addItems_append] at hfull ⊢
    have hmid : mid.isFull → (b'.addItems heap intrinsics items).isFull := by
      intro hmid
      have hstays := hrest.first
      rw [hstops hmid] at hstays hfull
      exact hfull (hstays ▸ hmid)
    rw [h.again hmid, ← hrest.again hfull]
    rfl

end Replays

theorem addFrame_eq (b : TraceBuilder) (f : Frame) : b.addFrame heap f =
    b.addItems heap intrinsics ((f.activations heap).reverse.map .activation) := by
  unfold addFrame
  split
  · rw [addItems, List.foldl_map]
    rfl
  · next h =>
    have hnone : f.activations heap = [] := by
      unfold Frame.activations
      unfold Frame.isManaged at h
      cases hk : f.kind <;> simp [hk, FrameKind.isManaged] at h ⊢
    rw [hnone]
    rfl

/-- What frames hand to a builder: all of their activations, if it has room to the end. -/
theorem addFrames_replays {codes : CodeRegistry} {segment : Nat} {raws : List RawFrame}
    (intrinsics : Intrinsics) (b' : TraceBuilder)
    (h : addFrames codes heap segment raws b = .ok added) :
    ∃ acts : List Activation,
      Replays heap intrinsics (addFrames codes heap segment raws) b added b'
        (acts.map .activation) ∧
      (added.isFull = false → ∃ frames, raws.mapM (Frame.view codes segment) = .ok frames ∧
        acts = frames.flatMap fun f => (f.activations heap).reverse) := by
  induction raws generalizing b b' with
  | nil =>
    exact ⟨[], .nothing (fun _ => rfl) h, fun _ => ⟨[], rfl, rfl⟩⟩
  | cons raw raws ih =>
    cases hview : Frame.view codes segment raw with
    | error e => simp [addFrames, hview, bind, Except.bind] at h
    | ok f =>
      have hfill : ∀ c : TraceBuilder, addFrames codes heap segment (raw :: raws) c =
          if c.isFull then .ok c else addFrames codes heap segment raws (c.addItems heap intrinsics
            ((f.activations heap).reverse.map .activation)) := by
        intro c
        simp only [addFrames, hview, ← addFrame_eq]
        rfl
      by_cases hfull : b.isFull
      · have hstays : ∀ c : TraceBuilder, c.isFull →
            addFrames codes heap segment (raw :: raws) c = .ok c := fun c hc => by
          rw [hfill, if_pos hc]
        obtain rfl : added = b := Except.ok.inj (h.symm.trans (hstays b hfull))
        exact ⟨[], .of_full hfull hstays h, fun hroom => absurd hfull (by simp [hroom])⟩
      · rw [hfill, if_neg hfull] at h
        obtain ⟨acts, hreplays, hall⟩ := ih _ h
        refine ⟨(f.activations heap).reverse ++ acts, ?_, fun hroom => ?_⟩
        · rw [List.map_append]
          exact .step hreplays (hfill b')
        · obtain ⟨frames, hframes, rfl⟩ := hall hroom
          refine ⟨f :: frames, ?_, rfl⟩
          rw [List.mapM_cons, hview, hframes]
          rfl

/-- A way to fill builders adds what waits: no activations, and nothing to a builder that is
full. -/
def AddsWaiting (heap : Heap) (intrinsics : Intrinsics)
    (fill : TraceBuilder → Walk TraceBuilder) : Prop :=
  ∀ ⦃b added⦄ b', fill b = .ok added → ∃ waiting : List TraceItem,
    (∀ item ∈ waiting, item.isActivation = false) ∧ (b.isFull → waiting = []) ∧
    Replays heap intrinsics fill b added b' waiting

namespace AddsWaiting

variable {fill rest : TraceBuilder → Walk TraceBuilder} {items : List TraceItem}

theorem of_stays (hstays : ∀ c, fill c = .ok c) : AddsWaiting heap intrinsics fill :=
  fun _ _ _ h => ⟨[], List.forall_mem_nil _, fun _ => rfl, .nothing hstays h⟩

theorem step (hpassive : ∀ item ∈ items, item.isActivation = false)
    (hrest : AddsWaiting heap intrinsics rest)
    (hfill : ∀ c, fill c = if c.isFull then .ok c else rest (c.addItems heap intrinsics items)) :
    AddsWaiting heap intrinsics fill := by
  intro b added b' h
  by_cases hfull : b.isFull
  · exact ⟨[], List.forall_mem_nil _, fun _ => rfl,
      .of_full hfull (fun c hc => by rw [hfill, if_pos hc]) h⟩
  · rw [hfill, if_neg hfull] at h
    obtain ⟨waiting, hwaiting, -, hreplays⟩ := hrest (b'.addItems heap intrinsics items) h
    refine ⟨items ++ waiting, fun item hitem => ?_, fun hb => absurd hb hfull,
      .step hreplays (hfill b')⟩
    exact (List.mem_append.mp hitem).elim (hpassive item) (hwaiting item)

end AddsWaiting

theorem addsWaiting_followOn {n : Nat}
    (h : ∀ p, AddsWaiting heap intrinsics (followFor heap intrinsics n p)) (hop : Hop) :
    AddsWaiting heap intrinsics (followOn heap intrinsics n hop) := by
  cases hnext : hop.next? heap with
  | none => exact .of_stays fun c => by rw [followOn, hnext, Option.elim_none]
  | some v =>
    have hon : followOn heap intrinsics n hop = followFor heap intrinsics n v := by
      funext c
      rw [followOn, hnext, Option.elim_some]
    rw [hon]
    exact h v

theorem addsWaiting_followFor (n : Nat) (p : Value) :
    AddsWaiting heap intrinsics (followFor heap intrinsics n p) := by
  induction n generalizing p with
  | zero => exact .of_stays fun _ => rfl
  | succ n ih =>
    cases hhop : Hop.ofPromise? heap p with
    | none => exact .of_stays fun c => by simp [followFor, hhop]
    | some hop =>
      cases hsound : hop.isSound with
      | true =>
        refine .step (fun item hitem => ?_) (addsWaiting_followOn ih hop)
          (followFor_hop hhop hsound)
        exact Hop.isActivation_item (Option.mem_toList.mp hitem)
      | false =>
        have hfails : AddsWaiting heap intrinsics fun _ => breach .awaitingGeneratorRuns := by
          intro b added b' h
          cases h
        refine .step (List.forall_mem_nil _) hfails fun c => ?_
        simp only [followFor, hhop, Hop.addTo_eq, hsound]
        rfl

theorem addsWaiting_follow (p : Value) :
    AddsWaiting heap intrinsics (·.follow heap intrinsics p) := by
  intro b added b' h
  -- One bound that is enough for both.
  let steps := (heap.size + 1) * (max b.limit b'.limit + 1)
  have henough : b.follow heap intrinsics p = followFor heap intrinsics steps p b :=
    follow_eq_followFor (Nat.mul_le_mul_left _ (by omega))
  have henough' : b'.follow heap intrinsics p = followFor heap intrinsics steps p b' :=
    follow_eq_followFor (Nat.mul_le_mul_left _ (by omega))
  obtain ⟨waiting, hwaiting, hstops, hreplays⟩ :=
    addsWaiting_followFor steps p b' (henough.symm.trans h)
  exact ⟨waiting, hwaiting, hstops, hreplays.first,
    fun hfull => henough'.trans (hreplays.again hfull)⟩

/-- What a trace adds after the stack. -/
def addWaiting (heap : Heap) (intrinsics : Intrinsics) (async : Bool) (microtask : Value)
    (b : TraceBuilder) : Walk TraceBuilder :=
  if async && !b.isFull then b.followMicrotask heap intrinsics microtask else .ok b

theorem addsWaiting_addWaiting (async : Bool) (microtask : Value) :
    AddsWaiting heap intrinsics (addWaiting heap intrinsics async microtask) := by
  cases async with
  | false => exact .of_stays fun _ => rfl
  | true =>
    cases hp : microtaskPromise? heap microtask with
    | none => exact .of_stays fun c => by simp [addWaiting, followMicrotask, hp]
    | some p =>
      refine .step (List.forall_mem_nil _) (addsWaiting_follow p) fun c => ?_
      cases hc : c.isFull <;> simp [addWaiting, followMicrotask, hp, hc, addItems]

/-- What a trace hands to a builder in all. -/
def addAll (env : Surroundings) (intrinsics : Intrinsics) (async : Bool) (t : ThreadState)
    (b : TraceBuilder) : Walk TraceBuilder :=
  b.addSegment env.codes env.heap t.stack.activeSegment >>=
    addWaiting env.heap intrinsics async t.microtask

theorem addAll_replays {env : Surroundings} {async : Bool} {t : ThreadState} (b' : TraceBuilder)
    (h : addAll env intrinsics async t b = .ok added) :
    ∃ (acts : List Activation) (waiting : List TraceItem),
      (∀ item ∈ waiting, item.isActivation = false) ∧
      Replays env.heap intrinsics (addAll env intrinsics async t) b added b'
        (acts.map .activation ++ waiting) ∧
      (added.isFull = false → ∃ frames, t.stack.activeSegment.views env.codes = .ok frames ∧
        acts = frames.flatMap fun f => (f.activations env.heap).reverse) := by
  unfold addAll at h
  cases hframes : b.addSegment env.codes env.heap t.stack.activeSegment with
  | error e => rw [hframes] at h; cases h
  | ok reached =>
    rw [hframes] at h
    have hadded : addWaiting env.heap intrinsics async t.microtask reached = .ok added := h
    obtain ⟨acts, hacts, hall⟩ := addFrames_replays intrinsics b' hframes
    obtain ⟨waiting, hwaiting, hstops, hwaits⟩ := addsWaiting_addWaiting _ _
      (b'.addItems env.heap intrinsics (acts.map .activation)) hadded
    refine ⟨acts, waiting, hwaiting, hacts.andThen hwaits hstops, fun hroom => hall ?_⟩
    refine Bool.eq_false_iff.mpr fun hfull => ?_
    have hsame : added = reached := by
      rw [hwaits.first, hstops hfull]
      rfl
    rw [hsame, hfull] at hroom
    exact nomatch hroom

theorem addItem_limit (b : TraceBuilder) (item : TraceItem) :
    (b.addItem heap intrinsics item).limit = b.limit := by
  cases item with
  | activation a =>
    have hpass : (b.passSkip a.function).2.limit = b.limit := by
      unfold passSkip
      split
      · split <;> rfl
      · rfl
    simp only [addItem, addActivation]
    split
    · rfl
    · split <;> exact hpass
  | suspended g =>
    simp only [addItem, addSuspended]
    split
    · rfl
    · split <;> rfl
  | element combinator closure =>
    simp only [addItem, addElement]
    split
    · rfl
    · split <;> rfl

theorem addItems_limit (b : TraceBuilder) (items : List TraceItem) :
    (b.addItems heap intrinsics items).limit = b.limit := by
  induction items generalizing b with
  | nil => rfl
  | cons item items ih => exact (ih _).trans (addItem_limit b item)

/-- A builder that starts is full in the end if there are sites enough. -/
theorem isFull_addItems_start {o : TraceOptions} {items : List TraceItem} :
    ((start o).addItems heap intrinsics items).isFull ↔
      o.limit ≤ ((start o).sitesOf heap intrinsics items).length := by
  rw [isFull_iff, addItems_limit, addItems_sites, List.length_append, List.length_take]
  simp only [start, List.length_nil]
  omega

theorem addItems_start (o : TraceOptions) (items : List TraceItem) :
    ((start o).addItems heap intrinsics items).sites =
      ((start o).sitesOf heap intrinsics items).take o.limit :=
  addItems_sites _ _

end TraceBuilder

namespace ThreadState

open TraceBuilder

/-- What the frames of the active segment stand for, innermost first. -/
def activations (t : ThreadState) (env : Surroundings) : Walk (List Activation) := do
  let frames ← t.stack.activeSegment.views env.codes
  return frames.flatMap fun f => (f.activations env.heap).reverse

variable {t : ThreadState} {env : Surroundings} {o : TraceOptions} {intrinsics : Intrinsics}
  {sites : List CallSite}

theorem trace_eq_addAll (t : ThreadState) (env : Surroundings) (o : TraceOptions)
    (intrinsics : Intrinsics) :
    t.trace env o intrinsics = (·.sites) <$> addAll env intrinsics o.async t (start o) := by
  unfold trace addAll addWaiting
  cases (start o).addSegment env.codes env.heap t.stack.activeSegment with
  | error e => rfl
  | ok b =>
    simp only [bind, Except.bind]
    split <;> rfl

/-- A trace lists the sites of some items as far as its limit goes. With room left the items begin
with all the activations; and other options find the same items, unless only the first trace was cut
off. -/
theorem trace_replays (h : t.trace env o intrinsics = .ok sites) (o' : TraceOptions)
    (hasync : o'.async = o.async) :
    ∃ (acts : List Activation) (waiting : List TraceItem),
      (∀ item ∈ waiting, item.isActivation = false) ∧
      let items := acts.map .activation ++ waiting
      let listed := (start o).sitesOf env.heap intrinsics items
      let listed' := (start o').sitesOf env.heap intrinsics items
      sites = listed.take o.limit ∧
      (listed.length < o.limit → t.activations env = .ok acts) ∧
      ((o.limit ≤ listed.length → o'.limit ≤ listed'.length) →
        t.trace env o' intrinsics = .ok (listed'.take o'.limit)) := by
  rw [trace_eq_addAll] at h
  cases hadded : addAll env intrinsics o.async t (start o) with
  | error e => rw [hadded] at h; cases h
  | ok added =>
    rw [hadded] at h
    obtain rfl : added.sites = sites := Except.ok.inj h
    obtain ⟨acts, waiting, hwaiting, hreplays, hall⟩ := addAll_replays (start o') hadded
    have hfull : added.isFull ↔ o.limit ≤ ((start o).sitesOf env.heap intrinsics
        (acts.map .activation ++ waiting)).length := by
      rw [hreplays.first, isFull_addItems_start]
    refine ⟨acts, waiting, hwaiting, ?_, fun hroom => ?_, fun hcut => ?_⟩
    · rw [hreplays.first, addItems_start]
    · obtain ⟨frames, hviews, rfl⟩ := hall (Bool.eq_false_iff.mpr fun h =>
        Nat.not_le.mpr hroom (hfull.mp h))
      rw [activations, hviews]
      rfl
    · have hagain := hreplays.again fun h => isFull_addItems_start.mpr (hcut (hfull.mp h))
      rw [trace_eq_addAll, hasync, hagain]
      exact congrArg Except.ok (addItems_start o' _)

/-- A trace with a lower limit is the beginning of one with a higher limit. -/
theorem trace_limit {n m : Nat} (hle : n ≤ m)
    (h : t.trace env { o with limit := m } intrinsics = .ok sites) :
    sites.length ≤ m ∧ t.trace env { o with limit := n } intrinsics = .ok (sites.take n) := by
  obtain ⟨acts, waiting, -, hsites, -, hreplays⟩ :=
    trace_replays h { o with limit := n } rfl
  rw [hsites, List.take_take, Nat.min_eq_left hle]
  exact ⟨List.length_take_le .., hreplays hle.trans⟩

end ThreadState

namespace ThreadState.AwaitExample

def interpreter : Code := ⟨0, 4096, Builtin.interpreterEntry.description⟩

def joining : Code := ⟨1, 8192, Builtin.arrayJoin.description⟩

def resuming : Code := ⟨2, 12288, Builtin.asyncFunctionAwaitResolve.description⟩

def gathering : Code := ⟨3, 16384, Builtin.promiseAllResolveElement.description⟩

def combining : Code := ⟨4, 20480, Builtin.promiseAll.description⟩

def bytecode : Bytecode := { length := 10, registerCount := 1 }

def user (name : String) (isStrict : Bool) : Function where
  info := { name, bytecode, isStrict, script := some ⟨"shop.js", ""⟩ }
  code := interpreter
  context := .undefined
  identityHash := 1
  isForwarding := false

def internal (name : String) (code : Code) (context : Value) : Function where
  info := { name, bytecode, origin := .builtin }
  code := code
  context := context
  identityHash := 1
  isForwarding := false

def asyncFunction (function promise : Value) (state : GeneratorState) : Generator :=
  { kind := .asyncFunction, function, receiver := .undefined, state, position := 4, promise
    queue := [] }

def pendingWith (fulfillHandler : Value) : Promise :=
  { reactions := [⟨fulfillHandler, .undefined, .undefined⟩] }

/-- `checkout` waits for all of some promises, and `load` will settle one of them. -/
def heap : Heap := ⟨#[
  .function (internal "join" joining .undefined),
  .function (user "load" true),
  .function (user "checkout" false),
  .generator (asyncFunction (.object 1) (.object 5) .executing),
  .generator (asyncFunction (.object 2) .undefined .suspended),
  .promise (pendingWith (.object 9)),
  .promise (pendingWith (.object 10)),
  .capability ⟨.object 6, .undefined, .undefined⟩,
  .function (internal "" resuming (.object 11)),
  .function (internal "" gathering (.object 12)),
  .function (internal "" resuming (.object 13)),
  .context ⟨.object 3, []⟩,
  .context ⟨.undefined, [.object 7]⟩,
  .context ⟨.object 4, []⟩,
  .reactionJob ⟨.fulfill, .object 8, .undefined⟩,
  .function (internal "all" combining .undefined)]⟩

def intrinsics : Intrinsics := { promiseAll := .object 15 }

def surroundings : Surroundings where
  heap := heap
  codes := { codes := [interpreter, joining, resuming, gathering, combining] }

/-- Builtin code that `load` called runs. -/
def thread : ThreadState :=
  ((({ microtask := .object 14 } : ThreadState).pushFrame
    (.interpreted interpreter (.object 1) bytecode 2)).2.pushFrame
      (.builtin joining (.object 0) 8)).2

theorem trace_limit_settling :
    (thread.trace surroundings {} intrinsics).map (·.map (·.functionName)) =
      .ok ["load", "Promise.all", "checkout"] ∧
    (thread.trace surroundings { limit := 2 } intrinsics).map (·.map (·.functionName)) =
      .ok ["load", "Promise.all"] := by
  obtain ⟨sites, hsites, hnames⟩ : ∃ sites, thread.trace surroundings {} intrinsics = .ok sites ∧
      sites.map (·.functionName) = ["load", "Promise.all", "checkout"] := ⟨_, rfl, rfl⟩
  have hlimit := trace_limit (o := {}) (n := 2) (by decide) hsites
  refine ⟨?_, ?_⟩
  · rw [hsites]
    exact congrArg Except.ok hnames
  · have htake : (sites.take 2).map (·.functionName) = ["load", "Promise.all"] := by
      rw [List.map_take, hnames]
      rfl
    rw [hlimit.2]
    exact congrArg Except.ok htake

end ThreadState.AwaitExample

end ScriptEngine
