import Reckon.Plot.Tic
import Reckon.Proofs.Outcome

namespace Reckon.Tic

section Steps

variable {α : Type} [Mul α] [Scale α]

-- The labels of some number of steps.
def ladder (width : α) (stride step : Int) (n : Nat) : List α :=
  (List.range n).map fun i : Nat => labelAt width (step + i * stride)

variable {width : α} {stop : α → Bool} {stride step : Int} {limit : Nat} {labels : List α}

theorem ladder_succ (n : Nat) : ladder width stride step (n + 1) =
    labelAt width step :: ladder width stride (step + stride) n := by
  rw [ladder, ladder, List.range_succ_eq_map, List.map_cons, List.map_map]
  congr 2
  · simp
  · funext i
    simp only [Function.comp_apply, Nat.succ_eq_add_one]
    congr 1
    push_cast
    ring

theorem mem_ladder {n : Nat} {label : α} : label ∈ ladder width stride step n ↔
    ∃ i < n, label = labelAt width (step + (i : Nat) * stride) := by
  simp [ladder, eq_comm]

-- There are labels for the steps before the first one that is to stop at, if the limit has room
-- for this one.
theorem labelsFrom_eq_some : labelsFrom width stop stride limit step = some labels ↔
    ∃ n < limit, labels = ladder width stride step n ∧ (∀ label ∈ labels, stop label = false) ∧
      stop (labelAt width (step + n * stride)) = true := by
  induction limit generalizing step labels with
  | zero => simp [labelsFrom]
  | succ limit ih =>
    have hnext : ∀ n : Nat, step + (n + 1 : Nat) * stride = step + stride + n * stride := by
      intro n
      push_cast
      ring
    rw [labelsFrom]
    by_cases hstop : stop (labelAt width step) = true
    · rw [if_pos hstop]
      constructor
      · rintro h
        obtain rfl := Option.some_inj.mp h
        exact ⟨0, by omega, rfl, by simp, by simpa using hstop⟩
      · rintro ⟨n, -, rfl, hgo, -⟩
        cases n with
        | zero => rfl
        | succ n =>
          rw [ladder_succ] at hgo
          simp [hstop] at hgo
    · rw [if_neg hstop, Option.map_eq_some_iff]
      constructor
      · rintro ⟨rest, hrest, rfl⟩
        obtain ⟨n, hn, rfl, hgo, hend⟩ := ih.mp hrest
        refine ⟨n + 1, by omega, (ladder_succ n).symm, ?_, by rwa [hnext]⟩
        simpa [hstop] using hgo
      · rintro ⟨n, hn, rfl, hgo, hend⟩
        cases n with
        | zero => simp [hstop] at hend
        | succ n =>
          rw [ladder_succ, List.forall_mem_cons] at hgo
          exact ⟨_, ih.mpr ⟨n, by omega, rfl, hgo.2, by rwa [← hnext]⟩, (ladder_succ n).symm⟩

theorem exists_labelsFrom {n : Nat} (hn : n < limit)
    (hstop : stop (labelAt width (step + n * stride)) = true) :
    ∃ labels, labelsFrom width stop stride limit step = some labels := by
  have hsome : ∃ n : Nat, stop (labelAt width (step + n * stride)) = true := ⟨n, hstop⟩
  classical
  refine ⟨_, labelsFrom_eq_some.mpr ⟨Nat.find hsome, (Nat.find_min' hsome hstop).trans_lt hn, rfl,
    fun label hlabel => ?_, Nat.find_spec hsome⟩⟩
  obtain ⟨i, hi, rfl⟩ := mem_ladder.mp hlabel
  exact Bool.eq_false_of_not_eq_true (Nat.find_min hsome hi)

-- If the steps to stop at are those from some number on, the labels are those of the steps before.
theorem labelsFrom_eq_ladder {n : Nat} (hn : n < limit)
    (hstop : ∀ i : Nat, stop (labelAt width (step + i * stride)) = true ↔ n ≤ i) :
    labelsFrom width stop stride limit step = some (ladder width stride step n) := by
  refine labelsFrom_eq_some.mpr ⟨n, hn, rfl, fun label hlabel => ?_, (hstop n).mpr le_rfl⟩
  obtain ⟨i, hi, rfl⟩ := mem_ladder.mp hlabel
  exact Bool.eq_false_of_not_eq_true (mt (hstop i).mp (not_le.mpr hi))

theorem pairwise_ladder {R : α → α → Prop} {n : Nat} :
    (ladder width stride step n).Pairwise R ↔ ∀ i j : Nat, i < j → j < n →
      R (labelAt width (step + i * stride)) (labelAt width (step + j * stride)) := by
  rw [ladder, List.pairwise_map, List.pairwise_iff_getElem]
  simp only [List.length_range, List.getElem_range]
  exact ⟨fun h i j hij hj => h i j (hij.trans hj) hj hij, fun h i j _ hj hij => h i j hij hj⟩

theorem ladder_append (n m : Nat) : ladder width stride step n ++
    ladder width stride (step + n * stride) m = ladder width stride step (n + m) := by
  simp only [ladder, List.range_add, List.map_append, List.map_map]
  congr 2
  funext i
  simp only [Function.comp_apply]
  congr 1
  push_cast
  ring

theorem reverse_ladder (n : Nat) :
    (ladder width (-1) (-1) n).reverse = ladder width 1 (-n) n := by
  refine List.ext_getElem (by simp [ladder]) fun i hi hi' => ?_
  simp only [ladder, List.length_map, List.length_range] at hi'
  simp only [ladder, List.getElem_reverse, List.getElem_map, List.getElem_range, List.length_map,
    List.length_range]
  congr 1
  omega

end Steps

section Whole

variable {α : Type} [Mul α] [Scale α] [LE α] [DecidableLE α] {width : α} {area : Interval α}
  {limit : Nat}

theorem labelsAroundZero_eq_some {whole : List α} :
    labelsAroundZero limit width area = some whole ↔ ∃ left right,
      labelsFrom width (fun label => decide (label ≤ area.lo)) (-1) limit (-1) = some left ∧
      labelsFrom width (fun label => decide (area.hi ≤ label)) 1 limit 0 = some right ∧
      left.reverse ++ right = whole := by
  simp [labelsAroundZero, Option.bind_eq_some_iff]

-- Whichever way they are counted, the labels are those of steps that follow on each other.
theorem exists_ladder [Div α] {whole : List α} (h : labels limit width area = .ok (some whole)) :
    ∃ first n, whole = ladder width 1 first n := by
  rw [labels] at h
  split_ifs at h
  · obtain ⟨left, right, hleft, hright, rfl⟩ := labelsAroundZero_eq_some.mp (Except.ok.inj h)
    obtain ⟨n, -, rfl, -⟩ := labelsFrom_eq_some.mp hleft
    obtain ⟨m, -, rfl, -⟩ := labelsFrom_eq_some.mp hright
    refine ⟨-n, n + m, ?_⟩
    rw [reverse_ladder, ← ladder_append, mul_one, neg_add_cancel]
  · obtain ⟨first, -, h⟩ := bind_eq_ok.mp h
    obtain ⟨n, -, rfl, -⟩ := labelsFrom_eq_some.mp (Except.ok.inj h)
    exact ⟨first, n, rfl⟩

end Whole

section Placed

variable {α : Type} [Add α] [Sub α] [Mul α] [Div α] [LE α] [DecidableLE α] [LT α] [DecidableLT α]
  (screen area : Interval α) (labels : List α)

-- The marks are those of the labels inside the area.
theorem label_placed : (placed screen area labels).map Tic.label =
    labels.filter fun label => decide (area.lo ≤ label ∧ label < area.hi) := by
  rw [placed, List.map_filterMap, ← List.filterMap_eq_filter]
  refine List.filterMap_congr fun label _ => ?_
  by_cases h : area.lo ≤ label ∧ label < area.hi <;> simp [Interval.project, h, Option.guard]

theorem mem_placed {tic : Tic α} : tic ∈ placed screen area labels ↔
    tic.label ∈ labels ∧ area.project tic.label screen = some tic.pos := by
  simp only [placed, List.mem_filterMap, Option.map_eq_some_iff]
  constructor
  · rintro ⟨label, hlabel, pos, hpos, rfl⟩
    exact ⟨hlabel, hpos⟩
  · rintro ⟨hlabel, hpos⟩
    exact ⟨tic.label, hlabel, tic.pos, hpos, rfl⟩

theorem filter_placed (p : α → Bool) :
    (placed screen area labels).filter (fun tic => p tic.label) =
      placed screen area (labels.filter p) := by
  rw [placed, placed, List.filter_filterMap, List.filterMap_filter]
  refine List.filterMap_congr fun label _ => ?_
  cases area.project label screen <;> simp [Option.filter]

end Placed

-- Exact arithmetic

instance : Scale ℚ where
  ofInt n := n
  ceil x := .ok ⌈x⌉

theorem labelAt_rat (width : ℚ) (step : Int) : labelAt width step = step * width := rfl

section Exact

variable {width : ℚ} (hwidth : 0 < width) {limit : Nat}
include hwidth

theorem labelAt_lt_iff {step next : Int} :
    labelAt width step < labelAt width next ↔ step < next := by
  rw [labelAt_rat, labelAt_rat, mul_lt_mul_iff_left₀ hwidth, Int.cast_lt]

theorem upward_eq_ladder {hi : ℚ} {step : Int} (hlimit : ⌈hi / width⌉ - step < limit)
    (hpos : 0 < limit) : labelsFrom width (fun label => decide (hi ≤ label)) 1 limit step =
      some (ladder width 1 step (⌈hi / width⌉ - step).toNat) := by
  refine labelsFrom_eq_ladder (by omega) fun i => ?_
  rw [decide_eq_true_iff, labelAt_rat, ← div_le_iff₀ hwidth, ← Int.ceil_le]
  omega

theorem downward_eq_ladder {lo : ℚ} (hlimit : ⌈-lo / width⌉ ≤ limit) (hpos : 0 < limit) :
    labelsFrom width (fun label => decide (label ≤ lo)) (-1) limit (-1) =
      some (ladder width (-1) (-1) (⌈-lo / width⌉ - 1).toNat) := by
  refine labelsFrom_eq_ladder (by omega) fun i => ?_
  have hceil : labelAt width (-1 + i * -1) ≤ lo ↔ ⌈-lo / width⌉ ≤ i + 1 := by
    rw [labelAt_rat, Int.ceil_le, div_le_iff₀ hwidth]
    push_cast
    constructor <;> intro h <;> linarith
  rw [decide_eq_true_iff, hceil]
  omega

theorem labelsAroundZero_eq_ladder {area : Interval ℚ} (hhi : 0 ≤ area.hi) (hpos : 0 < limit)
    (hlow : ⌈-area.lo / width⌉ ≤ limit) (hhigh : ⌈area.hi / width⌉ < limit) :
    labelsAroundZero limit width area = some
      (ladder width 1 (-(⌈-area.lo / width⌉ - 1).toNat)
        (⌈area.hi / width⌉ - -(⌈-area.lo / width⌉ - 1).toNat).toNat) := by
  have hnonneg : 0 ≤ ⌈area.hi / width⌉ := Int.ceil_nonneg (div_nonneg hhi hwidth.le)
  rw [labelsAroundZero_eq_some]
  refine ⟨_, _, downward_eq_ladder hwidth hlow hpos, upward_eq_ladder hwidth (by omega) hpos, ?_⟩
  rw [reverse_ladder, sub_zero, sub_neg_eq_add, add_comm ⌈area.hi / width⌉,
    Int.toNat_add (by omega) hnonneg, Int.toNat_natCast, ← ladder_append, mul_one, neg_add_cancel]

-- The steps that are counted down from zero end before the lower end is reached.
theorem step_iff_of_nonpos {lo : ℚ} (hlo : lo ≤ 0) {k : ℤ} (hk : lo ≤ k * width) :
    -((⌈-lo / width⌉ - 1).toNat : ℤ) ≤ k ↔ lo < k * width ∨ ¬lo < 0 := by
  rcases hlo.lt_or_eq with hneg | rfl
  · have hceil : 0 < ⌈-lo / width⌉ := Int.ceil_pos.mpr (div_pos (neg_pos.mpr hneg) hwidth)
    have hstep : -((⌈-lo / width⌉ - 1).toNat : ℤ) ≤ k ↔ -k < ⌈-lo / width⌉ := by omega
    rw [hstep, Int.lt_ceil, lt_div_iff₀ hwidth, Int.cast_neg, neg_mul, neg_lt_neg_iff]
    simp [hneg]
  · have hk' : 0 ≤ k := by
      rw [mul_nonneg_iff_of_pos_right hwidth] at hk
      exact_mod_cast hk
    exact iff_of_true (by omega) (.inr (lt_irrefl 0))

-- The steps go up to the last one below the upper end. They begin with the first one that is not
-- below the lower end, or above it if they are counted down from zero.
theorem labels_eq_ladder {area : Interval ℚ} (harea : area.lo < area.hi)
    (hlimit : ⌈area.length / width⌉ < limit) :
    ∃ first : ℤ, labels limit width area =
        .ok (some (ladder width 1 first (⌈area.hi / width⌉ - first).toNat)) ∧
      ∀ k : ℤ, area.lo ≤ k * width →
        (first ≤ k ↔ area.lo < k * width ∨ ¬(area.lo < 0 ∧ 0 ≤ area.hi)) := by
  have hlength : area.length = area.hi - area.lo := rfl
  have hpos : 0 < ⌈area.length / width⌉ := Int.ceil_pos.mpr (div_pos (sub_pos.mpr harea) hwidth)
  have hholds : area.holds (Scale.ofInt 0) = true ↔ area.lo ≤ 0 ∧ 0 ≤ area.hi := by
    simp [Interval.holds, Scale.ofInt]
  by_cases hzero : area.lo ≤ 0 ∧ 0 ≤ area.hi
  · have hceilHi : ⌈area.hi / width⌉ ≤ ⌈area.length / width⌉ := by
      gcongr
      linarith [hzero.1]
    have hceilLo : ⌈-area.lo / width⌉ ≤ ⌈area.length / width⌉ := by
      gcongr
      linarith [hzero.2]
    refine ⟨-(⌈-area.lo / width⌉ - 1).toNat, ?_, fun k hk => ?_⟩
    · rw [labels, if_pos (hholds.mpr hzero),
        labelsAroundZero_eq_ladder hwidth hzero.2 (by omega) (by omega) (by omega)]
    · rw [step_iff_of_nonpos hwidth hzero.1 hk, and_iff_left hzero.2]
  · refine ⟨⌈area.lo / width⌉, ?_, fun k hk => ?_⟩
    · have hsum := Int.ceil_add_le (area.length / width) (area.lo / width)
      rw [← add_div, show area.length + area.lo = area.hi by rw [hlength, sub_add_cancel]] at hsum
      rw [labels, if_neg (mt hholds.mp hzero)]
      exact congrArg Except.ok (upward_eq_ladder hwidth (by omega) (by omega))
    · rw [Int.ceil_le, div_le_iff₀ hwidth]
      exact iff_of_true hk (.inr fun h => hzero ⟨h.1.le, h.2⟩)

-- Whether zero lies in the interval settles how the labels are counted, but not which they are: the
-- lower end is left out only where they are counted down to it.
theorem exact_labels {area : Interval ℚ} (harea : area.lo < area.hi) (screen : Interval ℚ)
    (hlimit : ⌈area.length / width⌉ < limit) :
    ∃ labels, Tic.labels limit width area = .ok (some labels) ∧
      ((placed screen area labels).map Tic.label).Pairwise (· < ·) ∧
      ∀ m, m ∈ (placed screen area labels).map Tic.label ↔ (∃ k : ℤ, m = k * width) ∧
        (area.lo < m ∧ m < area.hi ∨ m = area.lo ∧ ¬(area.lo < 0 ∧ 0 ≤ area.hi)) := by
  obtain ⟨first, hladder, hfirst⟩ := labels_eq_ladder hwidth harea hlimit
  refine ⟨_, hladder, ?_, fun m => ?_⟩
  · rw [label_placed]
    refine List.Pairwise.filter _ (pairwise_ladder.mpr fun i j hij _ => ?_)
    rw [labelAt_lt_iff hwidth]
    omega
  · rw [label_placed, List.mem_filter, mem_ladder, decide_eq_true_iff]
    constructor
    · rintro ⟨⟨i, -, rfl⟩, hle, hhi⟩
      have hends := (hfirst _ hle).mp (by omega)
      exact ⟨⟨_, rfl⟩, hends.elim (fun h => .inl ⟨h, hhi⟩) fun h =>
        hle.lt_or_eq.imp (⟨·, hhi⟩) (⟨·.symm, h⟩)⟩
    · rintro ⟨⟨k, rfl⟩, hm⟩
      have hle : area.lo ≤ k * width := hm.elim (·.1.le) (·.1.ge)
      have hhi : k * width < area.hi := hm.elim (·.2) fun h => h.1 ▸ harea
      have hlow : first ≤ k := (hfirst k hle).mpr (hm.imp (·.1) (·.2))
      have hhigh : k < ⌈area.hi / width⌉ := Int.lt_ceil.mpr ((lt_div_iff₀ hwidth).mpr hhi)
      refine ⟨⟨(k - first).toNat, by omega, ?_⟩, hle, hhi⟩
      rw [labelAt_rat, mul_one, Int.toNat_of_nonneg (by omega), add_sub_cancel]

end Exact

-- The lower end is a multiple of the width, and is left out.
theorem exact_labels_halves :
    ∃ labels, Tic.labels 10 (1 / 2 : ℚ) ⟨-2, 5 / 2⟩ = .ok (some labels) ∧
      -2 ∉ (placed ⟨0, 9⟩ ⟨-2, 5 / 2⟩ labels).map Tic.label ∧
      -3 / 2 ∈ (placed ⟨0, 9⟩ ⟨-2, 5 / 2⟩ labels).map Tic.label := by
  have hlimit : ⌈(⟨-2, 5 / 2⟩ : Interval ℚ).length / (1 / 2)⌉ < (10 : Nat) := by decide +kernel
  obtain ⟨labels, hlabels, -, hmem⟩ :=
    exact_labels (by norm_num : (0 : ℚ) < 1 / 2) (by norm_num) ⟨0, 9⟩ hlimit
  refine ⟨labels, hlabels, ?_, (hmem _).mpr ⟨⟨-3, by norm_num⟩, .inl (by norm_num)⟩⟩
  rw [hmem]
  rintro ⟨-, h⟩
  norm_num at h

end Reckon.Tic
