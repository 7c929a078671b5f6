import Reckon.Proofs.Session.Sampling
import Reckon.Proofs.Shell

namespace Reckon

-- The line is answered by saying that calls nest too deeply.
def Response.Overruns (r : Response) : Prop := r.answer = .ok (.report Report.recursionLimit)

-- Nothing else has the code of such an answer.

theorem StatementError.code_ne (error : StatementError) : error.code ≠ "RECURSION_LIMIT" := by
  cases error with
  | malformed error =>
    obtain ⟨source, fault⟩ := error
    cases fault <;> simp [code, SyntaxError.code, Fault.code]
  | evaluation error => cases error <;> simp [code, EvaluationError.code]
  | equation error =>
    cases error with
    | operand error =>
      cases error <;> simp [code, EquationError.code, EvaluationError.code]
    | _ => simp [code, EquationError.code]

theorem Report.eq_runaway_of_ofResult {result : Except (Halt StatementError) (Outcome Float)}
    (h : ofResult result = recursionLimit) : result = .error .runaway := by
  cases result with
  | ok outcome => simp [ofResult, recursionLimit] at h
  | error halt =>
    cases halt with
    | runaway => rfl
    | fault error =>
      simp only [ofResult, recursionLimit, failure.injEq] at h
      exact absurd h.2 error.code_ne

namespace Graph

section Prolongs

variable {limit limit' : Nat} (h : limit ≤ limit') (g : Graph Float) (store : Store Float)
include h

theorem value?_prolongs (x : Float) :
    Prolongs .runaway (g.value? store limit x) (g.value? store limit' x) := by
  have happly : Prolongs .runaway
      (Evaluation.apply store limit g.name g.function [x] (.ofRoot g.root))
      (Evaluation.apply store limit' g.name g.function [x] (.ofRoot g.root)) :=
    Evaluation.apply_prolongs h ..
  unfold value?
  rcases happly with hcut | hsame
  · exact .inl (by rw [hcut])
  · exact .inr (by rw [hsame])

theorem image_prolongs (spread : Float → Float → Nat → List Float) :
    Prolongs .runaway (g.image store limit spread) (g.image store limit' spread) :=
  .bind (.mapM (value?_prolongs h g store) _) fun _ => .refl _

theorem picture_prolongs (decades : Decades) :
    Prolongs .runaway (g.picture store limit decades) (g.picture store limit' decades) := by
  have hsample : ∀ area screen column,
      Prolongs PlotError.runaway (Plot.sample g store limit area screen column)
        (Plot.sample g store limit' area screen column) := by
    intro area screen column
    unfold Plot.sample
    cases screen.x.project (Float.ofInt column) area.x with
    | none => exact .refl _
    | some x =>
      dsimp only
      rcases value?_prolongs h g store x with hcut | hsame
      · exact .inl (by rw [hcut])
      · exact .inr (by rw [hsame])
  refine .bind (.bind (.refl _) fun first => .bind (.refl _) fun last => ?_) fun _ => .refl _
  exact .bind (.mapM (hsample _ _) _) fun _ => .refl _

end Prolongs

-- Nothing is cut off in the graph of a built-in function.
theorem exists_image {g : Graph Float} {b : Builtin} (hbuiltin : g.function = .builtin b)
    (store : Store Float) (limit : Nat) (spread : Float → Float → Nat → List Float) :
    ∃ image, g.image store limit spread = .ok image := by
  have hvalue : ∀ x, ∃ y?, g.value? store limit x = .ok y? := fun x =>
    ⟨some (Arithmetic.apply b x), by rw [value?, hbuiltin, Evaluation.apply]; rfl⟩
  obtain ⟨ys, hys⟩ := exists_mapM fun x
    (_ : x ∈ spread shellArea.x.lo shellArea.x.hi imageSamples) => hvalue x
  exact ⟨_, by rw [image, hys]; rfl⟩

end Graph

namespace Session

variable {s : Session Float} {lib : Libraries} {around around' : Surroundings}
  {settings : Settings} {line name : String}

theorem drawOnScreen_of_le {g : Graph Float} {store : Store Float} {limit limit' : Nat}
    (h : limit ≤ limit')
    (hends : (drawOnScreen lib limit g store).1 ≠ .ok (.report Report.recursionLimit)) :
    drawOnScreen lib limit' g store = drawOnScreen lib limit g store := by
  unfold drawOnScreen at hends ⊢
  rcases g.picture_prolongs h store lib.decades with hcut | hsame
  · rw [hcut] at hends
    exact absurd rfl hends
  · rw [hsame]

theorem saveImage_of_le {g : Graph Float} {store : Store Float} {path : String}
    (h : around.limit ≤ around'.limit) (hwrite : around'.write = around.write)
    (hends : (saveImage lib around path g store).1 ≠ .ok (.report Report.recursionLimit)) :
    saveImage lib around' path g store = saveImage lib around path g store := by
  unfold saveImage at hends ⊢
  rcases g.image_prolongs h store lib.spread with hcut | hsame
  · rw [hcut] at hends
    exact absurd rfl hends
  · rw [hsame, hwrite]

theorem plot_of_le (h : around.limit ≤ around'.limit) (hwrite : around'.write = around.write)
    (hends : (s.plot lib around settings name).1 ≠ .ok (.report Report.recursionLimit)) :
    s.plot lib around' settings name = s.plot lib around settings name := by
  unfold plot at hends ⊢
  cases hgraph : Graph.ofName s.store s.root name with
  | error error => rfl
  | ok graph =>
    rw [hgraph] at hends
    cases hfile : settings.plotFile? with
    | none =>
      rw [hfile] at hends
      exact drawOnScreen_of_le h hends
    | some path =>
      rw [hfile] at hends
      exact saveImage_of_le h hwrite hends

-- A line that is not cut off is answered in the same way where calls may nest more deeply.
theorem respond_of_le (h : around.limit ≤ around'.limit) (hwrite : around'.write = around.write)
    (hends : ¬(s.respond lib around settings line).Overruns) :
    s.respond lib around' settings line = s.respond lib around settings line := by
  have hrun : s.run around'.limit line = s.run around.limit line := by
    refine run_of_le h fun hcut => hends ?_
    rw [Response.Overruns, respond]
    dsimp only
    rw [hcut]
    rfl
  rw [Response.Overruns, respond] at hends
  rw [respond, respond, hrun]
  dsimp only at hends ⊢
  cases hresult : (s.run around.limit line).result with
  | error halt => rfl
  | ok outcome =>
    cases outcome with
    | plot name =>
      rw [hresult] at hends
      dsimp only at hends ⊢
      rw [plot_of_le h hwrite hends]
    | _ => rfl

-- What the writer raises with the image of a built-in function.
theorem plot_of_raised {b : Builtin} {path : String} {raised : Raised}
    (hname : s.store.function? s.root name = some (.builtin b))
    (hfile : settings.plotFile? = some path)
    (hwrite : ∀ image, around.write image path = .raised raised) :
    s.plot lib around settings name = (.error raised, []) := by
  have hgraph := Graph.ofName_eq_ok.mpr ⟨.builtin b, hname, rfl, rfl, rfl⟩
  obtain ⟨image, himage⟩ : ∃ image, Graph.image ⟨name, .builtin b, s.store.roots.length⟩
      (s.store.snapshot s.root).2 around.limit lib.spread = .ok image :=
    Graph.exists_image rfl _ _ _
  simp only [plot, hgraph, hfile, saveImage, himage, hwrite]

-- What is told about a plot that is cut off.

theorem drawOnScreen_of_overruns {g : Graph Float} {store : Store Float} {limit : Nat}
    (hcut : (drawOnScreen lib limit g store).1 = .ok (.report Report.recursionLimit)) :
    drawOnScreen lib limit g store = plotOverrun g.name := by
  unfold drawOnScreen at hcut ⊢
  generalize g.picture store limit lib.decades = picture at hcut ⊢
  cases picture with
  | ok picture => cases hcut
  | error error =>
    cases error with
    | runaway => rfl
    | _ => cases hcut

theorem saveImage_of_overruns {g : Graph Float} {store : Store Float} {path : String}
    (hcut : (saveImage lib around path g store).1 = .ok (.report Report.recursionLimit)) :
    saveImage lib around path g store = plotOverrun g.name := by
  unfold saveImage at hcut ⊢
  generalize g.image store around.limit lib.spread = image at hcut ⊢
  cases image with
  | error halt => rfl
  | ok image =>
    dsimp only at hcut ⊢
    generalize around.write image path = writing at hcut ⊢
    cases writing with
    | overrun => rfl
    | refused cause => simp [Report.recursionLimit] at hcut
    | _ => cases hcut

theorem plot_of_overruns
    (hcut : (s.plot lib around settings name).1 = .ok (.report Report.recursionLimit)) :
    s.plot lib around settings name = plotOverrun name := by
  unfold plot at hcut ⊢
  cases hgraph : Graph.ofName s.store s.root name with
  | error error => cases error <;> simp [hgraph, Report.recursionLimit, GraphError.code] at hcut
  | ok graph =>
    obtain ⟨g, store⟩ := graph
    obtain rfl : g.name = name := by
      obtain ⟨f, -, -, rfl, -⟩ := Graph.ofName_eq_ok.mp hgraph
      rfl
    rw [hgraph] at hcut
    cases hfile : settings.plotFile? with
    | none =>
      rw [hfile] at hcut
      exact drawOnScreen_of_overruns hcut
    | some path =>
      rw [hfile] at hcut
      exact saveImage_of_overruns hcut

-- A line is cut off in its statement or in the plot that it asks for.
theorem overruns_cases (hcut : (s.respond lib around settings line).Overruns) :
    (∃ statement, Statement.parse line.toList = .ok statement ∧
      s.run around.limit line = ⟨s, .error .runaway, [.parsed line statement, .overrun line]⟩) ∨
    ∃ name, Statement.parse line.toList = .ok (.plot name) ∧
      s.plot lib around settings name = plotOverrun name := by
  rw [Response.Overruns, respond] at hcut
  dsimp only at hcut
  cases hresult : (s.run around.limit line).result with
  | error halt =>
    rw [hresult] at hcut
    have hreport := Answer.report.inj (Except.ok.inj hcut)
    exact .inl (run_of_runaway (hresult.trans (Report.eq_runaway_of_ofResult hreport)))
  | ok outcome =>
    cases outcome with
    | plot name =>
      have hparse := parse_of_plot hresult
      rw [run_plot hparse] at hcut
      exact .inr ⟨name, hparse, plot_of_overruns hcut⟩
    | _ =>
      rw [hresult] at hcut
      simp [Report.ofResult, Report.recursionLimit] at hcut

theorem not_overruns {statement : Statement Float}
    (hparse : Statement.parse line.toList = .ok statement) (hplot : ∀ name, statement ≠ .plot name)
    (hends : (s.perform around.limit statement).result ≠ .error .runaway) :
    ¬(s.respond lib around settings line).Overruns := by
  intro hcut
  rcases overruns_cases hcut with ⟨_, -, hrun⟩ | ⟨name, hname, -⟩
  · exact hends (by rw [← result_execute hparse, ← result_run, hrun])
  · exact hplot name (Except.ok.inj (hparse.symm.trans hname))

-- So it makes no difference how deeply calls may nest, as long as a line is cut off in both cases
-- or in none.
theorem respond_congr (hwrite : around'.write = around.write)
    (hcut : (s.respond lib around' settings line).Overruns ↔
      (s.respond lib around settings line).Overruns) :
    s.respond lib around' settings line = s.respond lib around settings line := by
  by_cases h : (s.respond lib around settings line).Overruns
  · rcases overruns_cases h with ⟨statement, hparse, hrun⟩ | ⟨name, hparse, hplot⟩ <;>
      rcases overruns_cases (hcut.mpr h) with ⟨statement', hparse', hrun'⟩ |
        ⟨name', hparse', hplot'⟩
    · obtain rfl : statement = statement' := Except.ok.inj (hparse.symm.trans hparse')
      rw [respond, respond, hrun, hrun']
    · cases congrArg Step.result (hrun.symm.trans (run_plot hparse' s around.limit))
    · cases congrArg Step.result (hrun'.symm.trans (run_plot hparse s around'.limit))
    · obtain rfl : name = name' :=
        Statement.plot.inj (Except.ok.inj (hparse.symm.trans hparse'))
      simp only [respond, run_plot hparse, hplot, hplot']
  · rcases le_total around.limit around'.limit with hle | hle
    · exact respond_of_le hle hwrite h
    · exact (respond_of_le hle hwrite.symm (mt hcut.mp h)).symm

-- Lines cannot tell two worlds apart in which the same is written and the same of the lines that
-- come to be executed are cut off.
structure Alike (s : Session Float) (lib : Libraries) (settings : Settings) (lines : List String)
    (here there : Nat → Surroundings) : Prop where
  write : ∀ i, (there i).write = (here i).write
  overruns : ∀ i (hi : i < lines.length) r, (s.responses lib here settings lines)[i]? = some r →
    (((s.before here lines i).respond lib (there i) settings lines[i]).Overruns ↔ r.Overruns)

namespace Alike

variable {lines : List String} {here there : Nat → Surroundings}

-- If no line is cut off where calls may nest less deeply, none is where they may nest more deeply.
theorem of_le (hlimit : ∀ i, (there i).limit ≤ (here i).limit)
    (hwrite : ∀ i, (there i).write = (here i).write)
    (hends : ∀ i (hi : i < lines.length),
      ¬((s.before here lines i).respond lib (there i) settings lines[i]).Overruns) :
    s.Alike lib settings lines here there where
  write := hwrite
  overruns i hi r hr := by
    rw [eq_responseAt hi hr, responseAt,
      respond_of_le (hlimit i) (hwrite i).symm (hends i hi)]

theorem respond_eq (h : s.Alike lib settings (line :: lines) here there) :
    s.respond lib (there 0) settings line = s.respond lib (here 0) settings line :=
  respond_congr (h.write 0) (h.overruns 0 (Nat.succ_pos _) _ rfl)

theorem rest (h : s.Alike lib settings (line :: lines) here there) {answer : Answer}
    (hanswer : (s.respond lib (here 0) settings line).answer = .ok answer) :
    (s.respond lib (here 0) settings line).session.Alike lib settings lines
      (fun i => here (i + 1)) (fun i => there (i + 1)) where
  write i := h.write (i + 1)
  overruns i hi r hr := by
    rw [← before_succ s lib here settings line lines i]
    refine h.overruns (i + 1) (Nat.succ_lt_succ hi) r ?_
    rw [responses, List.getElem?_cons_succ, hanswer]
    exact hr

theorem responses_eq (h : s.Alike lib settings lines here there) :
    s.responses lib there settings lines = s.responses lib here settings lines ∧
      s.respondAll lib there settings lines = s.respondAll lib here settings lines := by
  induction lines generalizing s here there with
  | nil => exact ⟨rfl, rfl⟩
  | cons line lines ih =>
    rw [responses, responses, respondAll, respondAll, h.respond_eq]
    dsimp only
    cases hanswer : (s.respond lib (here 0) settings line).answer with
    | error raised => exact ⟨rfl, rfl⟩
    | ok answer =>
      obtain ⟨hresponses, hbatch⟩ := ih (h.rest hanswer)
      rw [hresponses, hbatch]
      exact ⟨rfl, rfl⟩

end Alike

end Session

end Reckon
