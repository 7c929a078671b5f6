import Reckon.Proofs.Shell.Limit
import Reckon.Shell.Standard

namespace Reckon

namespace Shell

variable {lib : Libraries} {settings : Settings} {line : String} {lines : List String}

-- The turns of a dialogue, up to the one that ends it.
def turns (s : Session Float) (lib : Libraries) (world : Nat → Surroundings)
    (settings : Settings) : List String → List Turn
  | [] => []
  | input :: inputs =>
    let t := turn s lib (world 0) settings input
    t :: match t.course with
      | .goesOn => turns t.session lib (fun i => world (i + 1)) settings inputs
      | .quits | .breaks _ => []

-- The session that turns leave behind.
def sessionAfter (s : Session Float) (turns : List Turn) : Session Float :=
  turns.foldl (fun _ t => t.session) s

-- A line that a dialogue takes for a statement as it stands.
structure IsStatement (line : String) : Prop where
  ne_empty : line ≠ ""
  unbroken : '\n' ∉ line.toList
  stripped : Text.strip line.toList = line.toList
  no_command : Command.ofText? line = none

theorem isStatement_iff : IsStatement line ↔ line ≠ "" ∧ '\n' ∉ line.toList ∧
    Text.strip line.toList = line.toList ∧ Command.ofText? line = none :=
  ⟨fun h => ⟨h.ne_empty, h.unbroken, h.stripped, h.no_command⟩,
    fun ⟨hempty, hunbroken, hstripped, hcommand⟩ => ⟨hempty, hunbroken, hstripped, hcommand⟩⟩

instance : Decidable (IsStatement line) := decidable_of_iff _ isStatement_iff.symm

theorem IsStatement.turn_eq (h : IsStatement line) (s : Session Float) (around : Surroundings) :
    turn s lib around settings line = .ofResponse (s.respond lib around settings line) := by
  have hempty : line.isEmpty = false := by simpa using h.ne_empty
  simp only [turn, h.stripped, String.ofList_toList, hempty, h.no_command, Bool.false_eq_true,
    ite_false]

theorem turns_eq_responses (hlines : ∀ line ∈ lines, IsStatement line) (s : Session Float)
    (world : Nat → Surroundings) : turns s lib world settings lines =
      (s.responses lib world settings lines).map Turn.ofResponse := by
  induction lines generalizing s world with
  | nil => rfl
  | cons line lines ih =>
    obtain ⟨hline, hlines⟩ := List.forall_mem_cons.mp hlines
    rw [turns, hline.turn_eq, Session.responses, List.map_cons]
    dsimp only [Turn.ofResponse]
    cases (s.respond lib (world 0) settings line).answer with
    | error raised => rfl
    | ok answer => rw [ih hlines]

-- What a dialogue writes when its input ends, unless something was raised before.
def closing : Except Raised Bool → List Output
  | .ok _ => [.shown prompt, .shown ("\n" ++ farewell)]
  | .error _ => []

-- A dialogue adds its prompts to what is written about the lines, and its farewell at the end.
theorem dialogue_eq_responses (hlines : ∀ line ∈ lines, IsStatement line) (s : Session Float)
    (world : Nat → Surroundings) :
    dialogue s lib world settings lines =
      ⟨(s.respondAll lib world settings lines).ending.map fun _ => 0,
        (s.responses lib world settings lines).flatMap (fun r => .shown prompt :: r.outputs) ++
          closing (s.respondAll lib world settings lines).ending⟩ := by
  induction lines generalizing s world with
  | nil => rfl
  | cons line lines ih =>
    obtain ⟨hline, hlines⟩ := List.forall_mem_cons.mp hlines
    rw [dialogue, hline.turn_eq, Session.responses, Session.respondAll, List.flatMap_cons]
    dsimp only [Turn.ofResponse]
    cases (s.respond lib (world 0) settings line).answer with
    | error raised => simp [Except.map, closing]
    | ok answer =>
      dsimp only
      rw [ih hlines]
      cases ((s.respond lib (world 0) settings line).session.respondAll lib
        (fun i => world (i + 1)) settings lines).ending <;> simp [Except.map, closing]

theorem sessionAfter_responses (s : Session Float) (lib : Libraries)
    (world : Nat → Surroundings) (settings : Settings) (lines : List String) :
    sessionAfter s ((s.responses lib world settings lines).map Turn.ofResponse) =
      (s.respondAll lib world settings lines).session := by
  induction lines generalizing s world with
  | nil => rfl
  | cons line lines ih =>
    rw [Session.responses, Session.respondAll, List.map_cons, sessionAfter, List.foldl_cons,
      ← sessionAfter]
    dsimp only
    cases (s.respond lib (world 0) settings line).answer with
    | error raised => rfl
    | ok answer => exact ih ..

theorem linesFrom_append {cs : List Char} (hcs : '\n' ∉ cs) (line rest : List Char) :
    linesFrom line (cs ++ '\n' :: rest) =
      String.ofList (line.reverse ++ cs) :: linesFrom [] rest := by
  induction cs generalizing line with
  | nil => simp [linesFrom]
  | cons c cs ih =>
    obtain ⟨hc, hcs⟩ : '\n' ≠ c ∧ '\n' ∉ cs := by simpa using hcs
    rw [List.cons_append, linesFrom, if_neg (Ne.symm hc), ih hcs]
    simp

-- Each line with a line break behind it.
def typed (lines : List String) : String := String.join (lines.map (· ++ "\n"))

theorem inputLines_typed {lines : List String} (hlines : ∀ line ∈ lines, '\n' ∉ line.toList) :
    inputLines (typed lines) = lines := by
  induction lines with
  | nil => rfl
  | cons line lines ih =>
    obtain ⟨hline, hlines⟩ := List.forall_mem_cons.mp hlines
    have htyped : (typed (line :: lines)).toList = line.toList ++ '\n' :: (typed lines).toList := by
      simp [typed, String.join_cons]
    rw [inputLines, htyped, linesFrom_append hline, ← inputLines, ih hlines]
    simp

end Shell

namespace Options

open Shell

section Run

variable {o : Options} (lib : Libraries) (world : Nat → Surroundings) (input : String)
  (hversion : o.version = false) (hhealth : o.healthCheck = false)

include hversion hhealth

theorem run_of_no_lines :
    { o with lines := [] }.run lib world input =
      ⟨(dialogue Session.fresh lib world o.settings (inputLines input)).ending,
        .shown greeting ::
          (dialogue Session.fresh lib world o.settings (inputLines input)).outputs⟩ := by
  simp only [run, hversion, hhealth, List.isEmpty_nil, Bool.false_eq_true, ite_false, ite_true]
  rfl

theorem run_of_typed {lines : List String} (hlines : ∀ line ∈ lines, IsStatement line) :
    { o with lines := [] }.run lib world (typed lines) =
      ⟨(Session.fresh.respondAll lib world o.settings lines).ending.map fun _ => 0,
        [.shown greeting] ++
          (Session.fresh.responses lib world o.settings lines).flatMap
            (fun r => .shown prompt :: r.outputs) ++
          closing (Session.fresh.respondAll lib world o.settings lines).ending⟩ := by
  rw [run_of_no_lines lib world _ hversion hhealth,
    inputLines_typed fun line hline => (hlines line hline).unbroken, dialogue_eq_responses hlines]
  rfl

theorem run_of_lines {lines : List String} (hne : lines ≠ []) :
    { o with lines }.run lib world input =
      ⟨(Session.fresh.respondAll lib world o.settings lines).ending.map
          fun success => if success then 0 else 1,
        (Session.fresh.responses lib world o.settings lines).flatMap Response.outputs⟩ := by
  have hsome : lines.isEmpty = false := by simpa using hne
  simp only [run, hversion, hhealth, hsome, Bool.false_eq_true, ite_false,
    Session.outputs_respondAll]
  rfl

end Run

theorem code_eq_zero {ending : Except Raised Bool} {outputs : List Output} :
    Run.code ⟨ending.map fun success => if success then 0 else 1, outputs⟩ = 0 ↔
      ending = .ok true := by
  cases ending with
  | error raised => simp [Run.code, Except.map]
  | ok success => cases success <;> simp [Run.code, Except.map]

-- Lines on the command line and the same lines typed in a dialogue are executed one by one in
-- one session, each in what the lines before it have left, and what is written about a line is
-- the same, as long as calls nest too deeply for the same of the lines. A line that fails keeps
-- none from being executed, but after one whose plot makes the writer of images raise something
-- no line is. A run with lines on the command line ends well if all of them succeed. Without
-- lines the program leads a dialogue.
theorem run_agrees_with_dialogue (o : Options) (lib : Libraries) {here there : Nat → Surroundings}
    (input : String) {lines : List String} (hversion : o.version = false)
    (hhealth : o.healthCheck = false) (hlines : ∀ line ∈ lines, IsStatement line)
    (hclose : lib.decades.Close)
    (halike : Session.fresh.Alike lib o.settings lines here there) :
    let settings := o.settings
    let responses := Session.fresh.responses lib here settings lines
    let before := Session.fresh.before here lines
    let turns := turns Session.fresh lib there settings (inputLines (typed lines))
    let batch := Session.fresh.respondAll lib here settings lines
    let atOnce := { o with lines }.run lib here input
    let dialogue := { o with lines := [] }.run lib there (typed lines)
    (∀ i (hi : i < lines.length),
      ((∀ j (hj : j < i), ¬(before j).Raises lib (here j) settings lines[j]) →
        responses[i]? = some ((before i).respond lib (here i) settings lines[i])) ∧
      ((∃ j, ∃ hj : j < i, (before j).Raises lib (here j) settings lines[j]) →
        responses[i]? = none)) ∧
    turns = responses.map Turn.ofResponse ∧
    sessionAfter Session.fresh turns = batch.session ∧
    dialogue = ⟨batch.ending.map fun _ => 0, [.shown greeting] ++
      responses.flatMap (fun r => .shown prompt :: r.outputs) ++ closing batch.ending⟩ ∧
    (lines ≠ [] →
      atOnce.outputs = responses.flatMap Response.outputs ∧
      (∀ raised, atOnce.ending = .error raised ↔ dialogue.ending = .error raised) ∧
      (atOnce.code = 0 ↔
        ∀ i (hi : i < lines.length), (before i).Succeeds lib (here i) settings lines[i])) := by
  intro settings responses before turns batch atOnce dialogue
  obtain ⟨hresponses, hbatch⟩ := halike.responses_eq
  have hturns : turns = responses.map Turn.ofResponse := by
    simp only [turns, settings]
    rw [inputLines_typed fun line hline => (hlines line hline).unbroken,
      turns_eq_responses hlines, hresponses]
  have hdialogue : dialogue = _ := run_of_typed lib there hversion hhealth hlines
  rw [hresponses, hbatch] at hdialogue
  refine ⟨fun i hi => ?_, hturns, ?_, hdialogue, fun hne => ?_⟩
  · constructor
    · refine fun hnone => (Session.getElem?_responses hi).1 fun j hj raised hraised => ?_
      exact hnone j hj ((Session.respond_raises hclose).mp ⟨raised, hraised⟩)
    · rintro ⟨j, hj, hraises⟩
      obtain ⟨raised, hraised⟩ := (Session.respond_raises hclose).mpr hraises
      exact (Session.getElem?_responses hi).2 ⟨j, hj, raised, hraised⟩
  · rw [hturns]
    exact sessionAfter_responses ..
  · have hrun : atOnce = _ := run_of_lines lib here input hversion hhealth hne
    rw [hrun, hdialogue, ← Session.ending_respondAll]
    refine ⟨rfl, fun raised => ?_, code_eq_zero⟩
    cases batch.ending <;> simp [Except.map]

-- A line that fails does not keep the next one from being executed, at once or in a dialogue.
theorem run_agrees_with_dialogue_failed :
    let lines := ["x := y", "x := pi"]
    let write : Image → String → Writing := fun _ => Image.write fun _ => true
    let turns := turns Session.fresh .standard (fun _ => ⟨319, write⟩) (default : Options).settings
      (inputLines (typed lines))
    (({ default with lines } : Options).run .standard (fun _ => ⟨320, write⟩) "").code ≠ 0 ∧
    ((sessionAfter Session.fresh turns).execute 320 "x").result =
      .ok (.number 3.141592653589793) := by
  intro lines write turns
  have hlines : ∀ line ∈ lines, IsStatement line := by decide
  have hunknown : Statement.parse "x := y".toList = .ok (.assignment "x" (.symbol "y")) := by cbv
  have hpi : Statement.parse "x := pi".toList = .ok (.assignment "x" (.symbol "pi")) := by cbv
  have hx : Statement.parse "x".toList = .ok (.expression (.symbol "x")) := by cbv
  have halike : Session.fresh.Alike .standard (default : Options).settings lines
      (fun _ => ⟨320, write⟩) (fun _ => ⟨319, write⟩) := by
    refine .of_le (fun _ => by decide) (fun _ => rfl) fun i hi => ?_
    cases i with
    | zero => exact Session.not_overruns hunknown (by simp) (by decide)
    | succ i =>
      obtain rfl : i = 0 := by simpa [lines] using hi
      have hfirst : Session.fresh.before (fun _ => ⟨320, write⟩) lines 1 = _ :=
        Session.session_execute hunknown
      rw [hfirst]
      exact Session.not_overruns hpi (by simp) (by decide)
  obtain ⟨-, -, hsession, -, hrun⟩ :=
    run_agrees_with_dialogue default .standard "" rfl rfl hlines Decades.standard_close halike
  constructor
  · intro hcode
    obtain ⟨outcome, hresult, -⟩ := (hrun (by simp [lines])).2.2.mp hcode 0 (by decide)
    cases hresult.symm.trans (Session.result_execute hunknown)
  · rw [hsession]
    simp only [lines, Session.respondAll, Session.respond, Session.run, Session.execute, hunknown,
      hpi, hx]
    rfl

-- No format of images is called xyz. The writer raises that, and the second line is lost.
theorem later_line_not_executed :
    let o : Options := { default with lines := ["plot sin", "1 + 1"], plotFile? := some "out.xyz" }
    let world : Nat → Surroundings := fun _ => ⟨320, fun _ => Image.write fun _ => true⟩
    (∀ line ∈ o.lines, IsStatement line) ∧
    (Session.fresh.responses .standard world o.settings o.lines)[1]? = none ∧
    (∃ raised, (o.run .standard world "").ending = .error raised) ∧
    ∀ text, .shown text ∉ (o.run .standard world "").outputs := by
  intro o world
  have hparse : Statement.parse "plot sin".toList = .ok (.plot "sin") := by cbv
  have hkind : (Image.kind? "out.xyz").filter (fun kind => !Image.kinds.contains kind) =
      some "xyz" := by decide
  obtain ⟨raised, hwrite⟩ : ∃ raised, Image.write (fun _ => true) "out.xyz" = .raised raised :=
    ⟨_, by rw [Image.write, hkind]⟩
  have hworld : ∀ image, (world 0).write image "out.xyz" = .raised raised := fun _ => hwrite
  have hplot : Session.fresh.plot .standard (world 0) o.settings "sin" = (.error raised, []) :=
    Session.plot_of_raised (b := .sin) rfl (by decide) hworld
  have hrespond : Session.fresh.respond .standard (world 0) o.settings "plot sin" =
      ⟨Session.fresh, .error raised, [.noted (Event.parsed "plot sin" (.plot "sin")).entry]⟩ := by
    simp only [Session.respond, Session.run_plot hparse, hplot]
    rfl
  have hrun : o.run .standard world "" =
      ⟨.error raised, [.noted (Event.parsed "plot sin" (.plot "sin")).entry]⟩ := by
    have hlines : o.run .standard world "" = _ :=
      run_of_lines (o := o) .standard world "" rfl rfl (by decide)
    rw [hlines, Session.respondAll, Session.responses, hrespond]
    rfl
  refine ⟨by decide, ?_, ⟨raised, ?_⟩, ?_⟩
  · rw [Session.responses, hrespond]
    rfl
  · rw [hrun]
  · simp [hrun]

end Options

end Reckon
