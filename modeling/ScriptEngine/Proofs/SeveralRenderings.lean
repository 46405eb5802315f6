import Mathlib.Data.List.Forall2
import ScriptEngine.Proofs.NestedRenderings

namespace ScriptEngine

namespace TraceLine

/-- Lines as they stand in a trace. -/
def block (lines : List TraceLine) : String := String.join (lines.map (·.text ++ "\n"))

@[simp] theorem block_nil : block [] = "" := rfl

theorem block_cons (line : TraceLine) (lines : List TraceLine) :
    block (line :: lines) = line.text ++ "\n" ++ block lines := by
  simp [block, String.join_cons]

/-- Lines that a rendering asks for: up to the first one that fails, and that one. -/
def reached (lines : List TraceLine) : List TraceLine :=
  lines.take ((lines.takeWhile (!·.fails)).length + 1)

@[simp] theorem reached_nil : reached [] = [] := rfl

theorem reached_cons (line : TraceLine) (lines : List TraceLine) :
    reached (line :: lines) = line :: if line.fails then [] else reached lines := by
  cases h : line.fails with
  | true => simp [reached, h]
  | false => simp [reached, h]

end TraceLine

namespace Printer

open TraceLine (block reached)

variable {p : Printer} {lines : List TraceLine}

/-- Renderings one after the other, none inside of another. -/
def renderAll (p : Printer) : List (List TraceLine) → List Rendering × Printer
  | [] => ([], p)
  | lines :: rest =>
    let r := p.render lines
    let (later, p) := renderAll r.printer rest
    (r :: later, p)

/-- What requests get: those of the line at a place, the text of the lines in front of it. -/
def answers (lines : List TraceLine) : List NestedRender :=
  (reached lines).zipIdx.flatMap fun (line, k) =>
    line.requests.map fun _ => ⟨1, .ok (block (lines.take k))⟩

/-- A rendering that gives all of its lines and nothing else. -/
structure Rendered (lines : List TraceLine) (r : Rendering) : Prop where
  result : r.result = if lines.any (·.fails) then .error .line else .ok (block lines)
  nested : r.nested = answers lines
  level : r.printer.level = 0

theorem written_eq (done : String) (h : ¬ lines.any (·.fails)) :
    written done lines = done ++ block lines := by
  induction lines generalizing done with
  | nil => simp [written]
  | cons line rest ih =>
    simp only [List.any_cons, Bool.or_eq_true, not_or] at h
    rw [written, if_neg h.1, ih _ h.2, TraceLine.block_cons]
    simp only [String.append_assoc]

/-- The places of lines count from the one that follows the text so far. -/
theorem partials_eq (done : String) (lines : List TraceLine) :
    partials done lines = (reached lines).zipIdx.flatMap fun (line, k) =>
      line.requests.map fun _ => ⟨1, .ok (done ++ block (lines.take k))⟩ := by
  induction lines generalizing done with
  | nil => simp [partials]
  | cons line rest ih =>
    rw [partials, TraceLine.reached_cons, List.zipIdx_cons, List.flatMap_cons]
    congr 1
    · simp
    · split
      · simp
      · rw [ih, List.zipIdx_succ, List.flatMap_map]
        simp [TraceLine.block_cons, String.append_assoc]

theorem partials_empty (lines : List TraceLine) : partials "" lines = answers lines := by
  simp [partials_eq, answers]

theorem render_rendered (h : p.level = 0) (lines : List TraceLine) :
    Rendered lines (p.render lines) := by
  obtain ⟨hnested, hresult, hlevel⟩ := render_outermost h lines
  refine ⟨?_, hnested.trans (partials_empty lines), hlevel⟩
  rw [hresult]
  split
  · rfl
  · next hfails => simp [written_eq "" hfails]

/-- The text that a rendering starts with does not matter, so a failed one is as good as none. -/
theorem renderAll_rendered (h : p.level = 0) (runs : List (List TraceLine)) :
    List.Forall₂ Rendered runs (p.renderAll runs).1 ∧ (p.renderAll runs).2.level = 0 := by
  induction runs generalizing p with
  | nil =>
    rw [renderAll]
    exact ⟨.nil, h⟩
  | cons lines rest ih =>
    have hrendered := render_rendered h lines
    obtain ⟨hlater, hlevel⟩ := ih hrendered.level
    rw [renderAll]
    exact ⟨.cons hrendered hlater, hlevel⟩

theorem render_level (p : Printer) (lines : List TraceLine) :
    (p.render lines).printer.level = p.level := by
  obtain ⟨level, incomplete⟩ := p
  match level with
  | 0 => exact (render_outermost rfl lines).2.2
  | 1 => rw [render_inner rfl]
  | n + 2 =>
    rw [render]
    rfl

/-- A request finds the rendering in progress that makes it, and leaves it so. -/
theorem nested_level (p : Printer) (lines : List TraceLine) :
    ∀ n ∈ (p.render lines).nested, n.level = p.level + 1 := by
  obtain ⟨level, incomplete⟩ := p
  intro n hn
  match level with
  | 0 =>
    rw [(render_outermost rfl lines).1] at hn
    obtain ⟨text, rfl⟩ := mem_partials hn
    rfl
  | 1 =>
    rw [render_inner rfl] at hn
    simp at hn
  | k + 2 =>
    rw [render] at hn
    simp at hn

/-- Renderings inside of others never change what those give, and no rendering changes what the
next one gives. The level is after each what it was before. -/
theorem renderAll_undisturbed (stale : String) (runs : List (List TraceLine)) :
    List.Forall₂ Rendered runs (renderAll ⟨0, stale⟩ runs).1 ∧
    (renderAll ⟨0, stale⟩ runs).2.level = 0 ∧
    ∀ (p : Printer) (lines : List TraceLine),
      (p.render lines).printer.level = p.level ∧
      ∀ n ∈ (p.render lines).nested, n.level = p.level + 1 := by
  obtain ⟨hrendered, hlevel⟩ := renderAll_rendered (p := ⟨0, stale⟩) rfl runs
  refine ⟨hrendered, hlevel, ?_⟩
  intro p lines
  exact ⟨render_level p lines, nested_level p lines⟩

section Example

/-- A rendering whose second line fails after it has asked for another one. The failed line is
neither in the text nor does it stay behind for the next rendering. -/
example :
    let runs := [[.ofText "a", .mk "b" [[.ofText "x"]] true, .ofText "c"], [.ofText "d"]]
    ((({} : Printer).renderAll runs).1.map (·.nested)) = [[⟨1, .ok "a\n"⟩], []] ∧
    ((({} : Printer).renderAll runs).1.map (·.result)) = [.error .line, .ok "d\n"] :=
  ⟨by cbv, by cbv⟩

end Example

end Printer

end ScriptEngine
