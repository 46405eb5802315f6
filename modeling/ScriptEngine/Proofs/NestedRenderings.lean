import ScriptEngine.Trace.Printer

namespace ScriptEngine

namespace TraceLine

def text : TraceLine → String
  | .mk text _ _ => text

/-- The renderings that producing the line asks for. -/
def requests : TraceLine → List (List TraceLine)
  | .mk _ requests _ => requests

def fails : TraceLine → Bool
  | .mk _ _ fails => fails

end TraceLine

namespace Printer

variable {p : Printer} {lines : List TraceLine}

/-- A text with lines appended to it, up to one that fails. -/
def written (done : String) : List TraceLine → String
  | [] => done
  | line :: rest => if line.fails then done else written (done ++ line.text ++ "\n") rest

/-- What requests get that lines make while they are appended to a text. Lines behind one that
fails make none. -/
def partials (done : String) : List TraceLine → List NestedRender
  | [] => []
  | line :: rest =>
    line.requests.map (fun _ => ⟨1, .ok done⟩) ++
      if line.fails then [] else partials (done ++ line.text ++ "\n") rest

theorem render_inner (h : p.level = 1) (lines : List TraceLine) :
    p.render lines = ⟨.ok p.incomplete, [], p⟩ := by
  obtain ⟨level, incomplete⟩ := p
  obtain rfl : level = 1 := h
  simp [render, leave]

/-- Each request leaves the printer as the next one finds it. -/
theorem answer_inner (h : p.level = 1) (requests : List (List TraceLine)) :
    p.answer requests = (requests.map fun _ => ⟨1, .ok p.incomplete⟩, p) := by
  induction requests with
  | nil => simp [answer]
  | cons lines rest ih =>
    rw [answer, render_inner h]
    simp [ih, h]

theorem renderLines_inner (h : p.level = 1) (lines : List TraceLine) :
    p.renderLines lines =
      (!lines.any (·.fails), partials p.incomplete lines, ⟨1, written p.incomplete lines⟩) := by
  induction lines generalizing p with
  | nil =>
    rw [renderLines, ← h]
    rfl
  | cons line rest ih =>
    obtain ⟨text, requests, fails⟩ := line
    rw [renderLines, answer_inner h]
    cases fails with
    | true =>
      -- What its requests got stays, and the lines behind it are not asked for.
      simp [partials, written, TraceLine.requests, TraceLine.fails, ← h]
    | false =>
      have hrest := ih (p := { p with incomplete := p.incomplete ++ text ++ "\n" }) h
      simp [hrest, partials, written, TraceLine.requests, TraceLine.fails, TraceLine.text]

theorem render_outermost (h : p.level = 0) (lines : List TraceLine) :
    (p.render lines).nested = partials "" lines ∧
    (p.render lines).result =
      (if lines.any (·.fails) then .error .line else .ok (written "" lines)) ∧
    (p.render lines).printer.level = 0 := by
  obtain ⟨level, incomplete⟩ := p
  obtain rfl : level = 0 := h
  have hlines := renderLines_inner (p := ⟨1, ""⟩) rfl lines
  rw [render]
  dsimp only
  rw [hlines]
  cases lines.any (·.fails) with
  | true => exact ⟨rfl, rfl, rfl⟩
  | false => exact ⟨rfl, rfl, rfl⟩

theorem mem_partials {done : String} {n : NestedRender} (h : n ∈ partials done lines) :
    ∃ text, n = ⟨1, .ok text⟩ := by
  induction lines generalizing done with
  | nil => simp [partials] at h
  | cons line rest ih =>
    rw [partials, List.mem_append] at h
    rcases h with h | h
    · obtain ⟨_, -, rfl⟩ := List.mem_map.1 h
      exact ⟨done, rfl⟩
    · split at h
      · simp at h
      · exact ih h

/-- Renderings one after the other leave an unused printer unused. -/
theorem answer_outermost (h : p.level = 0) (runs : List (List TraceLine)) :
    (p.answer runs).2.level = 0 ∧
      ∀ n ∈ (p.answer runs).1, ∀ e, n.result ≠ .error (.fatal e) := by
  induction runs generalizing p with
  | nil => simp [answer, h]
  | cons lines rest ih =>
    obtain ⟨hnested, hresult, hlevel⟩ := render_outermost h lines
    obtain ⟨hafter, hrest⟩ := ih hlevel
    rw [answer]
    refine ⟨hafter, ?_⟩
    intro n hn e
    rcases List.mem_append.1 hn with hn | hn
    · rw [hnested] at hn
      obtain ⟨text, rfl⟩ := mem_partials hn
      simp
    · rcases List.mem_cons.1 hn with rfl | hn
      · rw [hresult]
        split
        · simp
        · simp
      · exact hrest n hn e

/-- Only a rendering inside of two others is fatal. -/
theorem render_fatal_iff (p : Printer) (lines : List TraceLine) :
    (∃ e, (p.render lines).result = .error (.fatal e)) ↔ 2 ≤ p.level := by
  constructor
  · rintro ⟨e, he⟩
    apply Nat.le_of_not_lt
    intro hlevel
    have hcases : p.level = 0 ∨ p.level = 1 := by omega
    rcases hcases with h | h
    · rw [(render_outermost h lines).2.1] at he
      split at he
      · cases he
      · cases he
    · rw [render_inner h] at he
      cases he
  · intro hlevel
    obtain ⟨level, incomplete⟩ := p
    obtain ⟨n, rfl⟩ : ∃ n, level = n + 2 := ⟨level - 2, by simp at hlevel; omega⟩
    refine ⟨.stackTraceDoubleFault (n + 2), ?_⟩
    rw [render]
    rfl

/-- All requests get the text so far, the second one as the first. None of them is fatal, neither
while lines are produced nor in any number of renderings one after the other. -/
theorem requests_answered (h : p.level = 0) (lines : List TraceLine) :
    (p.render lines).nested = partials "" lines ∧
    (∀ n ∈ (p.render lines).nested, ∃ text, n.result = .ok text) ∧
    (p.render lines).result =
      (if lines.any (·.fails) then .error .line else .ok (written "" lines)) ∧
    (p.render lines).printer.level = 0 ∧
    ∀ runs, ∀ n ∈ (p.answer runs).1, ∀ e, n.result ≠ .error (.fatal e) := by
  obtain ⟨hnested, hresult, hlevel⟩ := render_outermost h lines
  refine ⟨hnested, ?_, hresult, hlevel, fun runs => (answer_outermost h runs).2⟩
  rw [hnested]
  intro n hn
  obtain ⟨text, rfl⟩ := mem_partials hn
  exact ⟨text, rfl⟩

section Example

/-- Two lines that ask for a rendering each. -/
def askingTwice : List TraceLine :=
  [.ofText "a", .mk "b" [[.ofText "x"]] false, .mk "c" [[.ofText "y"]] false]

theorem requests_answered_askingTwice :
    (({} : Printer).render askingTwice).nested = [⟨1, .ok "a\n"⟩, ⟨1, .ok "a\nb\n"⟩] ∧
    (({} : Printer).render askingTwice).result = .ok "a\nb\nc\n" := by
  obtain ⟨hnested, -, hresult, -, -⟩ := requests_answered (p := {}) rfl askingTwice
  rw [hnested, hresult]
  exact ⟨rfl, rfl⟩

/-- The second request is no double fault. -/
theorem second_request_answered :
    (({} : Printer).render askingTwice).nested.length = 2 ∧
    ¬ ∃ n ∈ (({} : Printer).render askingTwice).nested, ∃ e, n.result = .error (.fatal e) := by
  rw [(render_outermost rfl askingTwice).1]
  refine ⟨rfl, ?_⟩
  rintro ⟨n, hn, e, he⟩
  obtain ⟨text, rfl⟩ := mem_partials hn
  cases he

end Example

end Printer

end ScriptEngine
