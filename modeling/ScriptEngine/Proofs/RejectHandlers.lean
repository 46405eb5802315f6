import ScriptEngine.Proofs.PromiseGraph

namespace ScriptEngine

namespace Heap

open Relation

/-- A function that does more than forward, or an object that is no function. -/
def RunsUserCode (h : Heap) (handler : Value) : Prop :=
  handler ≠ .undefined ∧
    ((∃ f, h.function? handler = some f ∧ f.isForwarding = false) ∨
      (h.function? handler = none ∧ handler.isObject))

/-- The promise itself is handled: it has a hint, or waits with a handler of user code. A handler
counts only if its reaction has a derived promise. -/
def SeesHandler (h : Heap) (v : Value) : Prop :=
  h.isHinted v ∨
    ∃ p, h.promise? v = some p ∧ p.isPending ∧
      ∃ r ∈ p.reactions, (h.derivedOf? r).isSome ∧ h.RunsUserCode r.rejectHandler

/-- A rejection comes to a promise that is handled. -/
def Finds (h : Heap) (v : Value) : Prop := ∃ w, ReflTransGen h.PassesOn v w ∧ h.SeesHandler w

/-- A reaction is a handler, or derives a promise whose rejection comes to one. -/
def FindsBehind (h : Heap) (v : Value) : Prop :=
  ∃ p, h.promise? v = some p ∧ ∃ r ∈ p.reactions, ∃ d, h.derivedOf? r = some d ∧
    (h.RunsUserCode r.rejectHandler ∨ h.Finds d)

variable {h : Heap} {v w : Value} {n : Nat}

theorem isReject_iff (handler : Value) :
    (!handler.isUndefined && h.isRejectHandler handler) = true ↔ h.RunsUserCode handler := by
  unfold isRejectHandler RunsUserCode
  cases handler <;> cases h.function? _ <;> simp [Value.isUndefined, Value.isObject]

theorem Finds.head (hvw : h.PassesOn v w) (hw : h.Finds w) : h.Finds v := by
  obtain ⟨q, hreach, hq⟩ := hw
  exact ⟨q, hreach.head hvw, hq⟩

theorem Finds.isSome (hv : h.Finds v) : (h.promise? v).isSome := by
  obtain ⟨w, hreach, hw⟩ := hv
  obtain rfl | ⟨u, ⟨p, hp, -⟩ | ⟨-, p, hp, -⟩, -⟩ := hreach.cases_head
  · rcases hw with hhint | ⟨p, hp, -⟩
    · exact Option.isSome_of_any hhint
    · exact Option.isSome_of_eq_some hp
  · exact Option.isSome_of_eq_some hp
  · exact Option.isSome_of_eq_some hp

theorem Finds.of_outer (hvw : ReflTransGen h.IsHandledBy v w) (hw : h.Finds w) : h.Finds v := by
  obtain ⟨q, hreach, hq⟩ := hw
  have hle : h.IsHandledBy ≤ h.PassesOn := fun _ _ => Or.inl
  exact ⟨q, (ReflTransGen.mono hle _ _ hvw).trans hreach, hq⟩

theorem FindsBehind.finds (hpending : h.isPending v) (hv : h.FindsBehind v) : h.Finds v := by
  obtain ⟨p, hp, r, hr, d, hd, hhandler | hfinds⟩ := hv
  · refine ⟨v, .refl, .inr ⟨p, hp, ?_, r, hr, Option.isSome_of_eq_some hd, hhandler⟩⟩
    rw [← isPending_of hp, hpending]
  · exact hfinds.head (.inr ⟨hpending, p, hp, r, hr, hd⟩)

/-- A search may go down along the outer promises first, and look at reactions then. -/
theorem finds_iff : h.Finds v ↔
    ∃ w, ReflTransGen h.IsHandledBy v w ∧ (h.isHinted w ∨ h.isPending w ∧ h.FindsBehind w) := by
  constructor
  · rintro ⟨w, hreach, hw⟩
    induction hreach using ReflTransGen.head_induction_on with
    | refl =>
      refine ⟨w, .refl, hw.imp_right ?_⟩
      rintro ⟨p, hp, hpending, r, hr, hsome, hhandler⟩
      obtain ⟨d, hd⟩ := Option.isSome_iff_exists.mp hsome
      exact ⟨(isPending_of hp).trans hpending, p, hp, r, hr, d, hd, .inl hhandler⟩
    | @head v u hvu huw ih =>
      rcases hvu with houter | ⟨hpending, p, hp, r, hr, hd⟩
      · obtain ⟨q, huq, hq⟩ := ih
        exact ⟨q, huq.head houter, hq⟩
      · exact ⟨v, .refl, .inr ⟨hpending, p, hp, r, hr, u, hd, .inr ⟨w, huw, hw⟩⟩⟩
  · rintro ⟨w, hvw, hhint | ⟨hpending, hbehind⟩⟩
    · exact .of_outer hvw ⟨w, .refl, .inl hhint⟩
    · exact .of_outer hvw (hbehind.finds hpending)

/-- The pending promises that a descent has passed after one more. -/
def withPending (h : Heap) (v : Value) (passed : List Value) : List Value :=
  if h.isPending v then v :: passed else passed

/-- A descent ends, with this result. -/
inductive Descends (h : Heap) : Value → List Value → Descent → Prop
  | outside {v : Value} {passed : List Value} (hv : h.promise? v = none) :
    Descends h v passed (.reached passed)
  | hinted {v : Value} {passed : List Value} (hv : h.isHinted v) : Descends h v passed .hinted
  | last {v w : Value} {passed : List Value} (hv : h.isHinted v = false) (hw : h.IsHandledBy v w)
    (hlast : h.promise? w = none ∨ outerPromiseLimit < (h.withPending v passed).length) :
    Descends h v passed (.reached (h.withPending v passed))
  | on {v w : Value} {passed : List Value} {d : Descent} (hv : h.isHinted v = false)
    (hw : h.IsHandledBy v w) (hpromise : (h.promise? w).isSome)
    (hroom : (h.withPending v passed).length ≤ outerPromiseLimit)
    (rest : Descends h w (h.withPending v passed) d) : Descends h v passed d

mutual

/-- The search from a promise ends, with this answer. -/
inductive Answers (h : Heap) : Value → Bool → Prop
  | hinted {v : Value} (hv : Descends h v [] .hinted) : Answers h v true
  | reached {v : Value} {pending : List Value} {b : Bool} (hv : Descends h v [] (.reached pending))
    (hb : AnyReacts h pending b) : Answers h v b

/-- Promises are asked one after the other whether one of their reactions handles a rejection. -/
inductive AnyReacts (h : Heap) : List Value → Bool → Prop
  | nil : AnyReacts h [] false
  | found {v : Value} {vs : List Value} (hv : Reacts h v 0 true) : AnyReacts h (v :: vs) true
  | cons {v : Value} {vs : List Value} {b : Bool} (hv : Reacts h v 0 false)
    (hvs : AnyReacts h vs b) : AnyReacts h (v :: vs) b

/-- What a promise answers for its reactions. -/
inductive Reacts (h : Heap) : Value → Nat → Bool → Prop
  | deep {v : Value} {depth : Nat} (hdepth : reactionDepthLimit < depth) : Reacts h v depth false
  | outside {v : Value} {depth : Nat} (hv : h.promise? v = none) : Reacts h v depth false
  | promise {v : Value} {depth : Nat} {p : Promise} {b : Bool} (hdepth : depth ≤ reactionDepthLimit)
    (hv : h.promise? v = some p) (hb : AnyHandles h depth p.reactions b) : Reacts h v depth b

/-- Reactions are asked one after the other. For a derived promise both searches are done. -/
inductive AnyHandles (h : Heap) : Nat → List Reaction → Bool → Prop
  | nil {depth : Nat} : AnyHandles h depth [] false
  | passed {depth : Nat} {r : Reaction} {rs : List Reaction} {b : Bool}
    (hr : h.derivedOf? r = none) (hrs : AnyHandles h depth rs b) : AnyHandles h depth (r :: rs) b
  | handler {depth : Nat} {r : Reaction} {rs : List Reaction} {d : Value}
    (hr : h.derivedOf? r = some d) (hhandler : h.RunsUserCode r.rejectHandler) :
    AnyHandles h depth (r :: rs) true
  | outer {depth : Nat} {r : Reaction} {rs : List Reaction} {d : Value}
    (hr : h.derivedOf? r = some d) (hhandler : ¬h.RunsUserCode r.rejectHandler)
    (hd : Answers h d true) : AnyHandles h depth (r :: rs) true
  | deeper {depth : Nat} {r : Reaction} {rs : List Reaction} {d : Value}
    (hr : h.derivedOf? r = some d) (hhandler : ¬h.RunsUserCode r.rejectHandler)
    (hd : Answers h d false) (hdeeper : Reacts h d (depth + 1) true) :
    AnyHandles h depth (r :: rs) true
  | cons {depth : Nat} {r : Reaction} {rs : List Reaction} {d : Value} {b : Bool}
    (hr : h.derivedOf? r = some d) (hhandler : ¬h.RunsUserCode r.rejectHandler)
    (hd : Answers h d false) (hdeeper : Reacts h d (depth + 1) false)
    (hrs : AnyHandles h depth rs b) : AnyHandles h depth (r :: rs) b

end

/-- What a descent has to say about the promises from one on, behind those it had passed. -/
def Descent.Sees (h : Heap) (v : Value) (passed : List Value) : Descent → Prop
  | hinted => ∃ w, ReflTransGen h.IsHandledBy v w ∧ h.isHinted w
  | reached pending =>
    (∀ w, ReflTransGen h.IsHandledBy v w → h.isHinted w = false) ∧
      ∀ w, w ∈ pending ↔ w ∈ passed ∨ ReflTransGen h.IsHandledBy v w ∧ h.isPending w

theorem mem_withPending {passed : List Value} :
    w ∈ h.withPending v passed ↔ w ∈ passed ∨ (w = v ∧ h.isPending w) := by
  unfold withPending
  split
  case isTrue hpending =>
    rw [List.mem_cons, or_comm]
    exact or_congr_right ⟨fun hw => ⟨hw, hw ▸ hpending⟩, And.left⟩
  case isFalse hsettled =>
    exact ⟨.inl, fun hw => hw.resolve_right fun ⟨hv, hw⟩ => hsettled (hv ▸ hw)⟩

theorem length_withPending (vs passed : List Value) :
    (h.withPending v passed).length + vs.countP h.isPending =
      passed.length + (v :: vs).countP h.isPending := by
  unfold withPending
  rw [List.countP_cons]
  cases h.isPending v with
  | true => simp only [if_true, List.length_cons]; omega
  | false => simp

theorem Descent.Sees.nothing {passed : List Value} (hv : h.promise? v = none) :
    (Descent.reached passed).Sees h v passed := by
  have hend : ∀ w, ReflTransGen h.IsHandledBy v w → w = v := by
    intro w hvw
    obtain rfl | ⟨u, ⟨p, hp, -⟩, -⟩ := hvw.cases_head
    · rfl
    · rw [hv] at hp
      cases hp
  refine ⟨fun w hvw => ?_, fun w => ⟨.inl, fun hw => hw.resolve_right fun ⟨hvw, hpending⟩ => ?_⟩⟩
  · rw [hend w hvw, isHinted, hv, Option.any_none]
  · rw [hend w hvw, isPending, hv] at hpending
    cases hpending

/-- A round of a descent puts its promise before what the rest of the descent sees. -/
theorem Descent.Sees.head {d : Descent} {passed : List Value} (hhint : h.isHinted v = false)
    (hvw : h.IsHandledBy v w) (hd : d.Sees h w (h.withPending v passed)) : d.Sees h v passed := by
  have hcases : ∀ u, ReflTransGen h.IsHandledBy v u ↔ u = v ∨ ReflTransGen h.IsHandledBy w u := by
    intro u
    rw [ReflTransGen.cases_head_iff, eq_comm]
    refine or_congr_right ⟨fun ⟨x, hvx, hxu⟩ => ?_, fun hwu => ⟨w, hvw, hwu⟩⟩
    rwa [hvw.unique hvx]
  cases d with
  | hinted =>
    obtain ⟨u, hwu, hu⟩ := hd
    exact ⟨u, hwu.head hvw, hu⟩
  | reached pending =>
    refine ⟨fun u hvu => ?_, fun u => (hd.2 u).trans ?_⟩
    · obtain rfl | hwu := (hcases u).mp hvu
      · exact hhint
      · exact hd.1 u hwu
    · rw [mem_withPending, hcases, or_and_right, or_assoc]

/-- Where no chain is long enough to stop it, a descent sees all the promises on its way. -/
theorem Descends.sees {passed : List Value} {d : Descent} (hd : h.Descends v passed d)
    (hroom : ∀ vs, (v :: vs).IsChain h.IsHandledBy →
      passed.length + (v :: vs).countP h.isPending ≤ outerPromiseLimit) : d.Sees h v passed := by
  induction hd with
  | outside hv => exact .nothing hv
  | hinted hv => exact ⟨_, .refl, hv⟩
  | @last v w passed hv hw hlast =>
    have hfits : (h.withPending v passed).length ≤ outerPromiseLimit :=
      (length_withPending [] passed).trans_le (hroom [] (.singleton v))
    exact .head hv hw (.nothing (hlast.resolve_right (Nat.not_lt.mpr hfits)))
  | on hv hw _ _ _ ih =>
    refine .head hv hw (ih fun vs hvs => ?_)
    rw [length_withPending]
    exact hroom _ (.cons_cons hw hvs)

theorem descendFor_succ {passed : List Value} {p : Promise} (hp : h.promise? v = some p) :
    h.descendFor (n + 1) v passed =
      if h.isHinted v then .hinted
      else if (h.promise? p.handledBy).isNone ∨
          outerPromiseLimit < (h.withPending v passed).length then
        .reached (h.withPending v passed)
      else h.descendFor n p.handledBy (h.withPending v passed) := by
  simp only [descendFor, hp, withPending, isPending_of hp, isHinted_of hp, Bool.or_eq_true,
    decide_eq_true_eq]

/-- A round for each promise in reach is enough for a descent. -/
theorem descendFor_descends (hacyclic : h.IsAcyclic) {passed : List Value}
    (hsteps : h.rank v ≤ n) : h.Descends v passed (h.descendFor n v passed) := by
  induction n generalizing v passed with
  | zero =>
    refine .outside (Option.not_isSome_iff_eq_none.mp fun hv => ?_)
    have := rank_pos hv
    omega
  | succ n ih =>
    cases hp : h.promise? v with
    | none =>
      rw [descendFor, hp]
      exact .outside hp
    | some p =>
      have houter : h.IsHandledBy v p.handledBy := ⟨p, hp, rfl⟩
      rw [descendFor_succ hp]
      split
      case isTrue hhint => exact .hinted hhint
      case isFalse hhint =>
        rw [Bool.not_eq_true] at hhint
        split
        case isTrue hstop => exact .last hhint houter (hstop.imp_left Option.isNone_iff_eq_none.mp)
        case isFalse hgoes =>
          rw [not_or, Option.isNone_iff_eq_none, Nat.not_lt] at hgoes
          have := rank_lt hacyclic (.inl houter)
          exact .on hhint houter (Option.isSome_iff_ne_none.mpr hgoes.1) hgoes.2 (ih (by omega))

theorem descend_descends (hacyclic : h.IsAcyclic) (v : Value) :
    h.Descends v [] (h.descend v) := by
  refine descendFor_descends hacyclic ?_
  calc h.rank v ≤ h.size := rank_le_size h v
    _ ≤ h.size + 1 := Nat.le_succ _
    _ ≤ (h.size + 1) * (outerPromiseLimit + 2) := Nat.le_mul_of_pos_right _ (by omega)

theorem descend_sees (hacyclic : h.IsAcyclic) (hshort : h.HasShortChains) (v : Value) :
    (h.descend v).Sees h v [] := by
  refine (descend_descends hacyclic v).sees fun vs hvs => ?_
  rw [List.length_nil, Nat.zero_add]
  exact hshort _ hvs

theorem FindsBehind.isPending (hsettled : h.SettledHaveNoReactions) (hv : h.FindsBehind v) :
    h.isPending v := by
  obtain ⟨p, hp, r, hr, -⟩ := hv
  rw [isPending_of hp]
  by_contra hnot
  rw [hsettled v p hp (Bool.eq_false_of_not_eq_true hnot)] at hr
  exact List.not_mem_nil hr

theorem handledByUserFor_succ (hacyclic : h.IsAcyclic) (hshort : h.HasShortChains) :
    h.handledByUserFor (n + 1) v = true ↔ ∃ w, ReflTransGen h.IsHandledBy v w ∧
      (h.isHinted w ∨ h.isPending w ∧ h.reactionsHandleFor n w 0) := by
  have hsees := descend_sees hacyclic hshort v
  rw [handledByUserFor]
  cases hd : h.descend v with
  | hinted =>
    rw [hd] at hsees
    obtain ⟨w, hvw, hw⟩ := hsees
    exact iff_of_true rfl ⟨w, hvw, .inl hw⟩
  | reached pending =>
    rw [hd] at hsees
    obtain ⟨hnot, hpending⟩ := hsees
    rw [List.any_eq_true]
    constructor
    · rintro ⟨w, hw, hhandles⟩
      obtain ⟨hvw, hw⟩ := ((hpending w).mp hw).resolve_left List.not_mem_nil
      exact ⟨w, hvw, .inr ⟨hw, hhandles⟩⟩
    · rintro ⟨w, hvw, hw⟩
      obtain ⟨hw, hhandles⟩ := hw.resolve_left (by rw [hnot w hvw]; exact Bool.false_ne_true)
      exact ⟨w, (hpending w).mpr (.inr ⟨hvw, hw⟩), hhandles⟩

/-- Whether a reaction handles a rejection, by the answers for its derived promise. -/
def handlesBy (h : Heap) (answer deeper : Value → Bool) (r : Reaction) : Bool :=
  match h.derivedOf? r with
  | none => false
  | some d =>
    (!r.rejectHandler.isUndefined && h.isRejectHandler r.rejectHandler) || answer d || deeper d

theorem reactionsHandleFor_of {p : Promise} {depth : Nat} (hdepth : depth ≤ reactionDepthLimit)
    (hp : h.promise? v = some p) : h.reactionsHandleFor (n + 1) v depth =
      p.reactions.any (h.handlesBy (h.handledByUserFor n)
        fun d => h.reactionsHandleFor n d (depth + 1)) := by
  rw [reactionsHandleFor, if_neg (Nat.not_lt.mpr hdepth), hp]
  rfl

theorem reactionsHandleFor_deep {depth : Nat} (hdepth : reactionDepthLimit < depth) :
    h.reactionsHandleFor n v depth = false := by
  cases n with
  | zero => rfl
  | succ n => rw [reactionsHandleFor, if_pos hdepth]

theorem reactionsHandleFor_outside {depth : Nat} (hv : h.promise? v = none) :
    h.reactionsHandleFor n v depth = false := by
  cases n with
  | zero => rfl
  | succ n => rw [reactionsHandleFor, hv, ite_self]

theorem handlesBy_iff {answer deeper : Value → Bool} {r : Reaction} :
    h.handlesBy answer deeper r = true ↔ ∃ d, h.derivedOf? r = some d ∧
      (h.RunsUserCode r.rejectHandler ∨ answer d ∨ deeper d) := by
  unfold handlesBy
  cases h.derivedOf? r with
  | none => exact iff_of_false Bool.false_ne_true fun ⟨d, hd, _⟩ => nomatch hd
  | some d =>
    simp only [Bool.or_eq_true, isReject_iff, or_assoc, Option.some.injEq, exists_eq_left']

theorem reactionsHandleFor_succ {depth : Nat} :
    h.reactionsHandleFor (n + 1) v depth = true ↔ depth ≤ reactionDepthLimit ∧
      ∃ p, h.promise? v = some p ∧ ∃ r ∈ p.reactions, ∃ d, h.derivedOf? r = some d ∧
        (h.RunsUserCode r.rejectHandler ∨ h.handledByUserFor n d ∨
          h.reactionsHandleFor n d (depth + 1)) := by
  by_cases hdepth : depth ≤ reactionDepthLimit
  · cases hp : h.promise? v with
    | none =>
      rw [reactionsHandleFor_outside hp]
      exact iff_of_false Bool.false_ne_true fun ⟨_, p, hp, _⟩ => nomatch hp
    | some p =>
      rw [reactionsHandleFor_of hdepth hp, List.any_eq_true]
      simp only [handlesBy_iff, and_iff_right hdepth, Option.some.injEq, exists_eq_left']
  · rw [reactionsHandleFor_deep (Nat.not_le.mp hdepth)]
    exact iff_of_false Bool.false_ne_true fun ⟨hle, _⟩ => hdepth hle

theorem anyReacts_any {answer : Value → Bool} {vs : List Value}
    (hvs : ∀ v ∈ vs, h.Reacts v 0 (answer v)) : h.AnyReacts vs (vs.any answer) := by
  induction vs with
  | nil => exact .nil
  | cons v vs ih =>
    have hv := hvs v List.mem_cons_self
    rw [List.any_cons]
    cases ha : answer v with
    | true => exact .found (ha ▸ hv)
    | false => exact .cons (ha ▸ hv) (ih fun w hw => hvs w (List.mem_cons_of_mem _ hw))

theorem anyHandles_any {answer deeper : Value → Bool} {depth : Nat} {rs : List Reaction}
    (hrs : ∀ r ∈ rs, ∀ d, h.derivedOf? r = some d →
      h.Answers d (answer d) ∧ h.Reacts d (depth + 1) (deeper d)) :
    h.AnyHandles depth rs (rs.any (h.handlesBy answer deeper)) := by
  induction rs with
  | nil => exact .nil
  | cons r rs ih =>
    have hrest := ih fun q hq => hrs q (List.mem_cons_of_mem _ hq)
    rw [List.any_cons]
    cases hr : h.derivedOf? r with
    | none =>
      rw [handlesBy, hr]
      exact .passed hr hrest
    | some d =>
      obtain ⟨hanswer, hdeeper⟩ := hrs r List.mem_cons_self d hr
      by_cases hhandler : h.RunsUserCode r.rejectHandler
      · rw [handlesBy_iff.mpr ⟨d, hr, .inl hhandler⟩]
        exact .handler hr hhandler
      · have hby : h.handlesBy answer deeper r = (answer d || deeper d) := by
          rw [← isReject_iff, Bool.not_eq_true] at hhandler
          rw [handlesBy, hr]
          simp only [hhandler, Bool.false_or]
        rw [hby]
        cases ha : answer d with
        | true => exact .outer hr hhandler (ha ▸ hanswer)
        | false =>
          cases hb : deeper d with
          | true => exact .deeper hr hhandler (ha ▸ hanswer) (hb ▸ hdeeper)
          | false => exact .cons hr hhandler (ha ▸ hanswer) (hb ▸ hdeeper) hrest

/-- Two rounds for each promise in reach are enough for a search. -/
theorem search_answers (hacyclic : h.IsAcyclic) (hshort : h.HasShortChains) (n : Nat) :
    (∀ v, 2 * h.rank v ≤ n → h.Answers v (h.handledByUserFor n v)) ∧
      ∀ v depth, 2 * h.rank v ≤ n + 1 → h.Reacts v depth (h.reactionsHandleFor n v depth) := by
  induction n with
  | zero =>
    have hoff : ∀ {v}, 2 * h.rank v ≤ 1 → h.promise? v = none := by
      intro v hrank
      refine Option.not_isSome_iff_eq_none.mp fun hv => ?_
      have := rank_pos hv
      omega
    exact ⟨fun v hrank => .reached (.outside (hoff (by omega))) .nil,
      fun v _ hrank => .outside (hoff hrank)⟩
  | succ n ih =>
    refine ⟨fun v hrank => ?_, fun v depth hrank => ?_⟩
    · have hdescends := descend_descends hacyclic v
      have hsees := descend_sees hacyclic hshort v
      rw [handledByUserFor]
      cases hd : h.descend v with
      | hinted => exact .hinted (hd ▸ hdescends)
      | reached pending =>
        rw [hd] at hsees
        refine .reached (hd ▸ hdescends) (anyReacts_any fun w hw => ih.2 w 0 ?_)
        obtain ⟨hvw, -⟩ := ((hsees.2 w).mp hw).resolve_left List.not_mem_nil
        have := rank_le_of_outer hvw
        omega
    · by_cases hdepth : depth ≤ reactionDepthLimit
      · cases hp : h.promise? v with
        | none =>
          rw [reactionsHandleFor_outside hp]
          exact .outside hp
        | some p =>
          rw [reactionsHandleFor_of hdepth hp]
          refine .promise hdepth hp (anyHandles_any fun r hr d hd => ?_)
          have := rank_lt hacyclic (.inr ⟨p, hp, r, hr, hd⟩)
          exact ⟨ih.1 d (by omega), ih.2 d _ (by omega)⟩
      · rw [reactionsHandleFor_deep (Nat.not_le.mp hdepth)]
        exact .deep (Nat.not_le.mp hdepth)

/-- What a search finds is there, whatever its bound. -/
theorem search_sound (hacyclic : h.IsAcyclic) (hshort : h.HasShortChains)
    (hsettled : h.SettledHaveNoReactions) (n : Nat) :
    (∀ v, h.handledByUserFor n v → h.Finds v) ∧
      ∀ v depth, h.reactionsHandleFor n v depth → h.FindsBehind v := by
  induction n with
  | zero => exact ⟨fun _ hv => absurd hv Bool.false_ne_true,
      fun _ _ hv => absurd hv Bool.false_ne_true⟩
  | succ n ih =>
    refine ⟨fun v hv => ?_, fun v depth hv => ?_⟩
    · obtain ⟨w, hvw, hw⟩ := (handledByUserFor_succ hacyclic hshort).mp hv
      exact finds_iff.mpr ⟨w, hvw, hw.imp_right (And.imp_right (ih.2 w 0))⟩
    · obtain ⟨-, p, hp, r, hr, d, hd, hhandler | hfinds | hdeeper⟩ := reactionsHandleFor_succ.mp hv
      · exact ⟨p, hp, r, hr, d, hd, .inl hhandler⟩
      · exact ⟨p, hp, r, hr, d, hd, .inr (ih.1 d hfinds)⟩
      · have hbehind := ih.2 d _ hdeeper
        exact ⟨p, hp, r, hr, d, hd, .inr (hbehind.finds (hbehind.isPending hsettled))⟩

/-- With two rounds for each promise in reach, a search finds what is there. The reactions of a
derived promise are looked at anew from depth zero, so the limit on the depth hides nothing. -/
theorem search_complete (hacyclic : h.IsAcyclic) (hshort : h.HasShortChains) (n : Nat) :
    (∀ v, 2 * h.rank v ≤ n → h.Finds v → h.handledByUserFor n v) ∧
      ∀ v, 2 * h.rank v ≤ n + 1 → h.FindsBehind v → h.reactionsHandleFor n v 0 := by
  induction n with
  | zero =>
    refine ⟨fun v hrank hv => ?_, fun v hrank ⟨p, hp, _⟩ => ?_⟩
    · have := rank_pos hv.isSome
      omega
    · have := rank_pos (Option.isSome_of_eq_some hp)
      omega
  | succ n ih =>
    refine ⟨fun v hrank hv => ?_, fun v hrank ⟨p, hp, r, hr, d, hd, hfinds⟩ => ?_⟩
    · obtain ⟨w, hvw, hw⟩ := finds_iff.mp hv
      refine (handledByUserFor_succ hacyclic hshort).mpr
        ⟨w, hvw, hw.imp_right (And.imp_right (ih.2 w ?_))⟩
      have := rank_le_of_outer hvw
      omega
    · refine reactionsHandleFor_succ.mpr ⟨Nat.zero_le _, p, hp, r, hr, d, hd, ?_⟩
      refine hfinds.imp_right fun hfinds => .inl (ih.1 d ?_ hfinds)
      have := rank_lt hacyclic (.inr ⟨p, hp, r, hr, hd⟩)
      omega

/-- A search ends, with the answer that it has within its bound, and decides whether a rejection
comes to a promise that is handled. -/
theorem hasUserRejectHandler_iff (hacyclic : h.IsAcyclic) (hshort : h.HasShortChains)
    (hsettled : h.SettledHaveNoReactions) (v : Value) :
    h.Answers v (h.hasUserRejectHandler v) ∧
      (h.hasUserRejectHandler v = true ↔
        ∃ w, ReflTransGen h.PassesOn v w ∧ h.SeesHandler w) := by
  have henough : 2 * h.rank v ≤ h.searchBound :=
    calc 2 * h.rank v ≤ 2 * h.size := Nat.mul_le_mul_left 2 (rank_le_size h v)
      _ = h.size * 2 := Nat.mul_comm _ _
      _ ≤ (h.size + 2) * (reactionDepthLimit + 3) :=
        Nat.mul_le_mul (Nat.le_add_right _ _) (by decide)
  exact ⟨(search_answers hacyclic hshort _).1 v henough,
    (search_sound hacyclic hshort hsettled _).1 v,
    (search_complete hacyclic hshort _).1 v henough⟩

end Heap

namespace Heap.RejectExample

/-- The first promise is handled by a settled one, and that by one that derives, through a
capability, a promise with a handler. -/
def heap : Heap := ⟨#[
  .promise { handledBy := .object 1 },
  .promise { status := .rejected, handledBy := .object 2 },
  .promise { reactions := [⟨.undefined, .undefined, .object 3⟩] },
  .capability ⟨.object 4, .undefined, .undefined⟩,
  .promise { reactions := [⟨.undefined, .object 5, .object 6⟩] },
  .plain,
  .promise {}]⟩

theorem isAcyclic : heap.IsAcyclic := isAcyclic_of_newer (by decide)

theorem settledHaveNoReactions : heap.SettledHaveNoReactions := by
  intro v p hp hsettled
  have hcheck := check_promises (fun _ p => p.isPending || p.reactions.isEmpty)
    (by decide : ∀ i < heap.size, _) hp
  simpa [hsettled] using hcheck

theorem hasUserRejectHandler_iff_capability :
    heap.hasUserRejectHandler (.object 0) = true ∧
      ∃ w, Relation.ReflTransGen heap.PassesOn (.object 0) w ∧ heap.SeesHandler w := by
  have hhandled : heap.hasUserRejectHandler (.object 0) = true := by decide
  refine ⟨hhandled, ?_⟩
  exact (hasUserRejectHandler_iff isAcyclic (hasShortChains_of_size isAcyclic (by decide))
    settledHaveNoReactions _).2.mp hhandled

end Heap.RejectExample

end ScriptEngine
