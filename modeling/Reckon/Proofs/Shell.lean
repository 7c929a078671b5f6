import Reckon.Proofs.Session.Limit
import Reckon.Proofs.Shell.Screen
import Reckon.Shell

namespace Reckon

namespace Session

section Line

variable (s : Session Float) (lib : Libraries) (around : Surroundings) (settings : Settings)

-- The function has a graph, and the graph can be put where plots go.
def Renders (name : String) : Prop :=
  ∃ g store, Graph.ofName s.store s.root name = .ok (g, store) ∧
    match settings.plotFile? with
    | none => ∃ picture, g.picture store around.limit lib.decades = .ok picture
    | some path => ∃ image, g.image store around.limit lib.spread = .ok image ∧
        around.write image path = .written

-- The writer raises something with the image of the function.
def PlotRaises (name : String) : Prop :=
  ∃ g store path image raised, Graph.ofName s.store s.root name = .ok (g, store) ∧
    settings.plotFile? = some path ∧ g.image store around.limit lib.spread = .ok image ∧
    around.write image path = .raised raised

-- A line succeeds if its statement does and the plot that it asks for can be rendered.
def Succeeds (line : String) : Prop :=
  ∃ outcome, (s.execute around.limit line).result = .ok outcome ∧
    ∀ name, outcome = .plot name →
      (s.execute around.limit line).session.Renders lib around settings name

-- A line raises something if it asks for a plot that the writer of images does so with.
def Raises (line : String) : Prop :=
  ∃ name, (s.execute around.limit line).result = .ok (.plot name) ∧
    (s.execute around.limit line).session.PlotRaises lib around settings name

end Line

section Respond

variable {s : Session Float} {lib : Libraries} {around : Surroundings} {settings : Settings}
  {line name : String}

theorem drawOnScreen_success {g : Graph Float} {store : Store Float} {limit : Nat} :
    (∃ answer, (drawOnScreen lib limit g store).1 = .ok answer ∧ answer.isSuccess = true) ↔
      ∃ picture, g.picture store limit lib.decades = .ok picture := by
  unfold drawOnScreen
  cases g.picture store limit lib.decades with
  | ok picture => simp [Answer.isSuccess]
  | error error =>
    cases error <;> simp [plotOverrun, Report.recursionLimit, Answer.isSuccess, Report.isSuccess]

theorem saveImage_success {path : String} {g : Graph Float} {store : Store Float} :
    (∃ answer, (saveImage lib around path g store).1 = .ok answer ∧ answer.isSuccess = true) ↔
      ∃ image, g.image store around.limit lib.spread = .ok image ∧
        around.write image path = .written := by
  unfold saveImage
  cases g.image store around.limit lib.spread with
  | error halt => simp [plotOverrun, Report.recursionLimit, Answer.isSuccess, Report.isSuccess]
  | ok image =>
    cases hwrite : around.write image path <;>
      simp [hwrite, plotOverrun, Report.recursionLimit, Answer.isSuccess, Report.isSuccess]

theorem plot_success :
    (∃ answer, (s.plot lib around settings name).1 = .ok answer ∧ answer.isSuccess = true) ↔
      s.Renders lib around settings name := by
  unfold plot Renders
  cases Graph.ofName s.store s.root name with
  | error error => simp [Answer.isSuccess, Report.isSuccess]
  | ok graph =>
    obtain ⟨g, store⟩ := graph
    cases settings.plotFile? with
    | none => simpa using drawOnScreen_success
    | some path => simpa using saveImage_success

theorem drawOnScreen_ne_error (hclose : lib.decades.Close) {g : Graph Float}
    {store : Store Float} {limit : Nat} {raised : Raised} :
    (drawOnScreen lib limit g store).1 ≠ .error raised := by
  unfold drawOnScreen
  cases hpicture : g.picture store limit lib.decades with
  | ok picture => simp
  | error error =>
    obtain rfl := Plot.exists_picture hclose hpicture
    simp [plotOverrun]

theorem saveImage_eq_error {path : String} {g : Graph Float} {store : Store Float}
    {raised : Raised} : (saveImage lib around path g store).1 = .error raised ↔
      ∃ image, g.image store around.limit lib.spread = .ok image ∧
        around.write image path = .raised raised := by
  unfold saveImage
  cases g.image store around.limit lib.spread with
  | error halt => simp [plotOverrun]
  | ok image => cases hwrite : around.write image path <;> simp [hwrite, plotOverrun]

theorem plot_raises (hclose : lib.decades.Close) :
    (∃ raised, (s.plot lib around settings name).1 = .error raised) ↔
      s.PlotRaises lib around settings name := by
  unfold plot PlotRaises
  cases Graph.ofName s.store s.root name with
  | error error => simp
  | ok graph =>
    obtain ⟨g, store⟩ := graph
    cases settings.plotFile? with
    | none => simp [drawOnScreen_ne_error hclose]
    | some path => simp [saveImage_eq_error, exists_comm (α := Raised)]

theorem session_respond (s : Session Float) (lib : Libraries) (around : Surroundings)
    (settings : Settings) (line : String) :
    (s.respond lib around settings line).session = (s.execute around.limit line).session :=
  session_run s around.limit line

theorem respond_success :
    (∃ answer, (s.respond lib around settings line).answer = .ok answer ∧
      answer.isSuccess = true) ↔ s.Succeeds lib around settings line := by
  unfold Succeeds
  dsimp only [respond]
  rw [session_run, result_run]
  cases (s.execute around.limit line).result with
  | error halt =>
    cases halt <;> simp [Answer.isSuccess, Report.ofResult, Report.recursionLimit, Report.isSuccess]
  | ok outcome =>
    cases outcome with
    | plot name => simp [plot_success]
    | _ => simp [Answer.isSuccess, Report.ofResult, Report.isSuccess]

theorem respond_raises (hclose : lib.decades.Close) :
    (∃ raised, (s.respond lib around settings line).answer = .error raised) ↔
      s.Raises lib around settings line := by
  unfold Raises
  dsimp only [respond]
  rw [session_run, result_run]
  cases (s.execute around.limit line).result with
  | error halt => simp
  | ok outcome =>
    cases outcome with
    | plot name => simp [plot_raises hclose]
    | _ => simp

end Respond

-- What is done with each of the lines in turn, up to the first one that raises something.
def responses (s : Session Float) (lib : Libraries) (world : Nat → Surroundings)
    (settings : Settings) : List String → List Response
  | [] => []
  | line :: lines =>
    let r := s.respond lib (world 0) settings line
    r :: match r.answer with
      | .ok _ => r.session.responses lib (fun i => world (i + 1)) settings lines
      | .error _ => []

-- The session that a line is executed in: what the lines before it leave, whatever came of them.
def before (s : Session Float) (world : Nat → Surroundings) (lines : List String) (i : Nat) :
    Session Float :=
  s.replay (fun j => (world j).limit) (lines.take i)

-- What is done with line `i`, if it is its turn.
def responseAt (s : Session Float) (lib : Libraries) (world : Nat → Surroundings)
    (settings : Settings) (lines : List String) (i : Nat) (hi : i < lines.length) : Response :=
  (s.before world lines i).respond lib (world i) settings lines[i]

section Lines

variable {s : Session Float} {lib : Libraries} {world world' : Nat → Surroundings}
  {settings : Settings} {lines : List String}

-- The first line is behind all that follow.

theorem before_succ (s : Session Float) (lib : Libraries) (world : Nat → Surroundings)
    (settings : Settings) (line : String) (lines : List String) (i : Nat) :
    s.before world (line :: lines) (i + 1) =
      (s.respond lib (world 0) settings line).session.before (fun i => world (i + 1)) lines i := by
  rw [session_respond]
  rfl

theorem responseAt_succ {line : String} {i : Nat} (hi : i + 1 < (line :: lines).length) :
    s.responseAt lib world settings (line :: lines) (i + 1) hi =
      (s.respond lib (world 0) settings line).session.responseAt lib (fun i => world (i + 1))
        settings lines i (Nat.lt_of_succ_lt_succ hi) := by
  rw [responseAt, before_succ s lib world settings line lines i]
  rfl

-- A line is executed unless one before it raises something.
theorem getElem?_responses {i : Nat} (hi : i < lines.length) :
    ((∀ j (hj : j < i) raised,
        (s.responseAt lib world settings lines j (hj.trans hi)).answer ≠ .error raised) →
      (s.responses lib world settings lines)[i]? =
        some (s.responseAt lib world settings lines i hi)) ∧
    ((∃ j, ∃ hj : j < i, ∃ raised,
        (s.responseAt lib world settings lines j (hj.trans hi)).answer = .error raised) →
      (s.responses lib world settings lines)[i]? = none) := by
  induction lines generalizing s world i with
  | nil => cases hi
  | cons line lines ih =>
    cases i with
    | zero => exact ⟨fun _ => rfl, fun ⟨j, hj, _⟩ => absurd hj (Nat.not_lt_zero j)⟩
    | succ i =>
      rw [responses, List.getElem?_cons_succ, responseAt_succ]
      cases hanswer : (s.respond lib (world 0) settings line).answer with
      | error raised =>
        refine ⟨fun hnone => absurd hanswer (hnone 0 (Nat.succ_pos i) raised), fun _ => rfl⟩
      | ok answer =>
        refine ⟨fun hbefore => (ih (Nat.lt_of_succ_lt_succ hi)).1 fun j hj raised => ?_,
          fun ⟨j, hj, raised, hraised⟩ => ?_⟩
        · rw [← responseAt_succ]
          exact hbefore (j + 1) (Nat.succ_lt_succ hj) raised
        · cases j with
          | zero => exact absurd (hanswer.symm.trans hraised) (by simp)
          | succ j =>
            rw [responseAt_succ] at hraised
            exact (ih (Nat.lt_of_succ_lt_succ hi)).2 ⟨j, Nat.lt_of_succ_lt_succ hj, raised, hraised⟩

theorem eq_responseAt {i : Nat} (hi : i < lines.length) {r : Response}
    (hr : (s.responses lib world settings lines)[i]? = some r) :
    r = s.responseAt lib world settings lines i hi := by
  by_cases h : ∃ j, ∃ hj : j < i, ∃ raised,
      (s.responseAt lib world settings lines j (hj.trans hi)).answer = .error raised
  · cases hr.symm.trans ((getElem?_responses hi).2 h)
  · have hat := (getElem?_responses hi).1 fun j hj raised hraised => h ⟨j, hj, raised, hraised⟩
    exact Option.some_inj.mp (hr.symm.trans hat)

theorem outputs_respondAll (s : Session Float) (lib : Libraries) (world : Nat → Surroundings)
    (settings : Settings) (lines : List String) :
    (s.respondAll lib world settings lines).outputs =
      (s.responses lib world settings lines).flatMap Response.outputs := by
  induction lines generalizing s world with
  | nil => rfl
  | cons line lines ih =>
    rw [respondAll, responses, List.flatMap_cons]
    dsimp only
    cases (s.respond lib (world 0) settings line).answer with
    | error raised => simp
    | ok answer => rw [← ih]

-- All lines succeed together if each of them does.
theorem ending_respondAll (s : Session Float) (lib : Libraries) (world : Nat → Surroundings)
    (settings : Settings) (lines : List String) :
    (s.respondAll lib world settings lines).ending = .ok true ↔
      ∀ i (hi : i < lines.length),
        (s.before world lines i).Succeeds lib (world i) settings lines[i] := by
  induction lines generalizing s world with
  | nil => simp [respondAll]
  | cons line lines ih =>
    have hsplit : (∀ i (hi : i < (line :: lines).length),
        (s.before world (line :: lines) i).Succeeds lib (world i) settings (line :: lines)[i]) ↔
        s.Succeeds lib (world 0) settings line ∧ ∀ i (hi : i < lines.length),
          ((s.respond lib (world 0) settings line).session.before (fun i => world (i + 1))
            lines i).Succeeds lib (world (i + 1)) settings lines[i] := by
      constructor
      · intro h
        refine ⟨h 0 (Nat.succ_pos _), fun i hi => ?_⟩
        rw [← before_succ s lib world settings line lines i]
        exact h (i + 1) (Nat.succ_lt_succ hi)
      · rintro ⟨hfirst, hrest⟩ i hi
        cases i with
        | zero => exact hfirst
        | succ i =>
          rw [before_succ s lib world settings line lines i]
          exact hrest i (Nat.lt_of_succ_lt_succ hi)
    rw [hsplit, ← respond_success, ← ih, respondAll]
    dsimp only
    cases (s.respond lib (world 0) settings line).answer with
    | error raised => simp
    | ok answer =>
      cases ((s.respond lib (world 0) settings line).session.respondAll lib
        (fun i => world (i + 1)) settings lines).ending <;> simp [Except.map]

end Lines

end Session

end Reckon
