import Reckon.Proofs.Token.Spelling

namespace Reckon.Token

open Text

-- Characters from `position` on as tokens and blanks, with `rest` behind them.
inductive Splits (rest : List Char) : Nat → List Char → List Token → Prop
  | nil {position : Nat} : Splits rest position [] []
  | blank {position : Nat} {c : Char} {cs : List Char} {tokens : List Token} :
      isBlank c = true → Splits rest (position + 1) cs tokens →
      Splits rest position (c :: cs) tokens
  | token {position : Nat} {kind : TokenKind} {word cs : List Char} {tokens : List Token} :
      Longest (word ++ (cs ++ rest)) kind word → Splits rest (position + word.length) cs tokens →
      Splits rest position (word ++ cs) (⟨kind, String.ofList word, position⟩ :: tokens)

section Splits

variable {rest front cs : List Char} {position : Nat} {tokens : List Token}

-- Scanning goes on behind what has been split.
theorem Splits.scanFrom (h : Splits rest position front tokens) :
    scanFrom position 0 (front ++ rest) = (do
      let more ← Token.scanFrom (position + front.length) 0 rest
      return tokens ++ more) := by
  induction h with
  | nil => simp
  | @blank position c cs tokens hblank _ ih =>
    rw [List.cons_append, scanFrom_blank hblank, ih, List.length_cons, Nat.add_assoc,
      Nat.add_comm 1]
  | @token position kind word cs tokens hlongest _ ih =>
    obtain ⟨c, word, rfl⟩ := List.exists_cons_of_ne_nil hlongest.spelled.ne_nil
    have hlexeme := (longest_iff_lexeme?.mp hlongest).2
    rw [List.append_assoc, List.cons_append,
      scanFrom_lexeme (isBlank_of_lexeme? hlexeme) hlexeme, ← List.length_cons (a := c), ih]
    simp [Nat.add_assoc, Nat.add_comm 1]

-- A line can be split up to its end, or to a character where no lexeme starts.
theorem exists_splits (cs : List Char) (position : Nat) : ∃ front rest tokens,
    cs = front ++ rest ∧ Splits rest position front tokens ∧
      ∀ c cs', rest = c :: cs' → isBlank c = false ∧ lexeme? c cs' = none := by
  induction hn : cs.length using Nat.strong_induction_on generalizing cs position with
  | _ n ih =>
    subst hn
    cases cs with
    | nil => exact ⟨[], [], [], rfl, .nil, by simp⟩
    | cons c cs =>
      by_cases hblank : isBlank c = true
      · obtain ⟨front, rest, tokens, rfl, hsplits, hend⟩ := ih _ (by simp) cs (position + 1) rfl
        exact ⟨c :: front, rest, tokens, rfl, .blank hblank hsplits, hend⟩
      · cases hlexeme : lexeme? c cs with
        | none =>
          refine ⟨[], c :: cs, [], rfl, .nil, ?_⟩
          rintro _ _ ⟨⟩
          exact ⟨by simpa using hblank, hlexeme⟩
        | some found =>
          obtain ⟨word, behind, hcs, hlongest⟩ := exists_longest hlexeme
          have hpos := List.length_pos_of_ne_nil hlongest.spelled.ne_nil
          rw [hcs] at ih ⊢
          obtain ⟨front, rest, tokens, rfl, hsplits, hend⟩ :=
            ih behind.length (by simpa using hpos) behind (position + word.length) rfl
          exact ⟨word ++ front, rest, _, by rw [List.append_assoc], .token hlongest hsplits, hend⟩

-- What stands behind does not matter, once a line has been split.
theorem Splits.cut (h : Splits rest position front tokens) : Splits [] position front tokens := by
  induction h with
  | nil => exact .nil
  | blank hblank _ ih => exact .blank hblank ih
  | token hlongest _ ih => exact .token (by rw [List.append_nil]; exact hlongest.cut) ih

end Splits

-- The characters of a line from one position up to another one are tokens and blanks.
structure Partition (source : List Char) (start stop : Nat) (tokens : List Token) : Prop where
  ordered : tokens.Pairwise fun t u => t.position + t.text.length ≤ u.position
  longest : ∀ t ∈ tokens, Longest (source.drop t.position) t.kind t.text.toList
  inside : ∀ t ∈ tokens, start ≤ t.position ∧ t.position + t.text.length ≤ stop
  covered : ∀ i c, start ≤ i → i < stop → source[i]? = some c →
    isBlank c = true ∨ ∃ t ∈ tokens, t.position ≤ i ∧ i < t.position + t.text.length

namespace Partition

variable {source cs rest word : List Char} {start stop : Nat} {tokens : List Token}
  {kind : TokenKind} {c : Char}

theorem nil : Partition source start start [] where
  ordered := .nil
  longest := by simp
  inside := by simp
  covered := fun i c hlow hhigh => by omega

theorem blank (hdrop : source.drop start = c :: cs) (hblank : isBlank c = true)
    (h : Partition source (start + 1) stop tokens) : Partition source start stop tokens where
  ordered := h.ordered
  longest := h.longest
  inside := fun t ht => ⟨by have := (h.inside t ht).1; omega, (h.inside t ht).2⟩
  covered := fun i d hlow hhigh hd => by
    rcases hlow.lt_or_eq with hlt | rfl
    · exact h.covered i d hlt hhigh hd
    · have hfirst : source[start]? = some c := by
        rw [← Nat.add_zero start, ← List.getElem?_drop, hdrop]
        rfl
      obtain rfl := Option.some.inj (hfirst.symm.trans hd)
      exact .inl hblank

theorem token (hlongest : Longest (source.drop start) kind word)
    (h : Partition source (start + word.length) stop tokens) (hstop : start + word.length ≤ stop) :
    Partition source start stop (⟨kind, String.ofList word, start⟩ :: tokens) where
  ordered := List.pairwise_cons.mpr
    ⟨fun t ht => by simpa using (h.inside t ht).1, h.ordered⟩
  longest := List.forall_mem_cons.mpr ⟨by simpa using hlongest, h.longest⟩
  inside := List.forall_mem_cons.mpr ⟨⟨le_rfl, by simpa using hstop⟩, fun t ht =>
    ⟨by have := (h.inside t ht).1; omega, (h.inside t ht).2⟩⟩
  covered := fun i d hlow hhigh hd => by
    by_cases hword : i < start + word.length
    · exact .inr ⟨_, List.mem_cons_self, hlow, by simpa using hword⟩
    · refine (h.covered i d (by omega) hhigh hd).imp_right ?_
      rintro ⟨t, ht, hi⟩
      exact ⟨t, List.mem_cons_of_mem _ ht, hi⟩

end Partition

theorem Splits.partition {source rest front : List Char} {position : Nat} {tokens : List Token}
    (h : Splits rest position front tokens) (hdrop : source.drop position = front ++ rest) :
    Partition source position (position + front.length) tokens := by
  induction h with
  | nil => exact .nil
  | @blank position c cs tokens hblank _ ih =>
    have hnext : source.drop (position + 1) = cs ++ rest := by
      rw [← List.drop_drop, hdrop, List.drop_one]
      rfl
    refine .blank hdrop hblank ?_
    rw [List.length_cons, Nat.add_comm cs.length, ← Nat.add_assoc]
    exact ih hnext
  | @token position kind word cs tokens hlongest _ ih =>
    rw [List.append_assoc] at hdrop
    have hnext : source.drop (position + word.length) = cs ++ rest := by
      rw [← List.drop_drop, hdrop, List.drop_left]
    rw [List.length_append, ← Nat.add_assoc]
    exact .token (by rw [hdrop]; exact hlongest) (ih hnext) (Nat.le_add_right _ _)

namespace Partition

variable {source : List Char} {start stop : Nat} {t u : Token} {tokens ts us : List Token}

theorem length_pos (h : Partition source start stop tokens) (ht : t ∈ tokens) :
    0 < t.text.length := by
  have hne := (h.longest t ht).spelled.ne_nil
  rw [← String.length_toList]
  exact List.length_pos_of_ne_nil hne

theorem text_eq (h : Partition source start stop tokens) (ht : t ∈ tokens) :
    t.text.toList = (source.drop t.position).take t.text.length := by
  rw [← String.length_toList]
  exact List.prefix_iff_eq_take.mp (h.longest t ht).front

-- With a token for the end of the line, too, each one starts behind the one before.
theorem pairwise_position (h : Partition source 0 stop tokens) :
    (tokens ++ [(⟨.finish, "", stop⟩ : Token)]).Pairwise fun t u => t.position < u.position := by
  refine List.pairwise_append.mpr ⟨?_, List.pairwise_singleton _ _, fun t ht u hu => ?_⟩
  · refine h.ordered.imp_of_mem fun ht _ hle => ?_
    have := h.length_pos ht
    omega
  · obtain rfl := List.mem_singleton.mp hu
    have := h.length_pos ht
    have := (h.inside t ht).2
    dsimp only
    omega

theorem tail (h : Partition source start stop (t :: ts)) :
    Partition source (t.position + t.text.length) stop ts where
  ordered := h.ordered.tail
  longest := fun u hu => h.longest u (List.mem_cons_of_mem _ hu)
  inside := fun u hu =>
    ⟨(List.pairwise_cons.mp h.ordered).1 u hu, (h.inside u (List.mem_cons_of_mem _ hu)).2⟩
  covered := fun i c hlow hhigh hc => by
    have hstart := (h.inside t List.mem_cons_self).1
    refine (h.covered i c (by omega) hhigh hc).imp_right ?_
    rintro ⟨u, hu, hi⟩
    rcases List.mem_cons.mp hu with rfl | hu
    · omega
    · exact ⟨u, hu, hi⟩

-- What starts a token is in a token of any other partition.
theorem exists_covering (h : Partition source start stop ts) (h' : Partition source start stop us)
    (ht : t ∈ ts) : ∃ u ∈ us, u.position ≤ t.position := by
  obtain ⟨hspelled, ⟨rest, hdrop⟩, -⟩ := h.longest t ht
  obtain ⟨c, cs, hword⟩ := List.exists_cons_of_ne_nil hspelled.ne_nil
  have hfirst : source[t.position]? = some c := by
    rw [← Nat.add_zero t.position, ← List.getElem?_drop, ← hdrop, hword]
    rfl
  have hblank := hspelled.isBlank c (by simp [hword])
  have hpos := h.length_pos ht
  obtain ⟨hlow, hhigh⟩ := h.inside t ht
  rcases h'.covered t.position c hlow (by omega) hfirst with hblank' | ⟨u, hu, hle, -⟩
  · rw [hblank] at hblank'
    cases hblank'
  · exact ⟨u, hu, hle⟩

theorem head_position_le (h : Partition source start stop (t :: ts))
    (h' : Partition source start stop (u :: us)) : u.position ≤ t.position := by
  obtain ⟨v, hv, hle⟩ := h.exists_covering h' List.mem_cons_self
  rcases List.mem_cons.mp hv with rfl | hv
  · exact hle
  · have := (List.pairwise_cons.mp h'.ordered).1 v hv
    omega

theorem head_eq (h : Partition source start stop (t :: ts))
    (h' : Partition source start stop (u :: us)) : t = u := by
  have hposition := le_antisymm (h'.head_position_le h) (h.head_position_le h')
  have ht := h.longest t List.mem_cons_self
  have hu := h'.longest u List.mem_cons_self
  rw [← hposition] at hu
  obtain ⟨hkind, hle⟩ := ht.greatest hu.spelled hu.front
  have hlength := le_antisymm (hu.greatest ht.spelled ht.front).2 hle
  have htext : t.text = u.text := String.toList_inj.mp (by
    rw [List.prefix_iff_eq_take.mp ht.front, hlength, ← List.prefix_iff_eq_take.mp hu.front])
  obtain ⟨kind, text, position⟩ := t
  obtain ⟨kind', text', position'⟩ := u
  obtain rfl : kind' = kind := hkind
  obtain rfl : text = text' := htext
  obtain rfl : position = position' := hposition
  rfl

-- There is only one way to split a line.
theorem unique (h : Partition source start stop ts) (h' : Partition source start stop us) :
    ts = us := by
  induction ts generalizing start us with
  | nil =>
    cases us with
    | nil => rfl
    | cons u us =>
      obtain ⟨t, ht, -⟩ := h'.exists_covering h List.mem_cons_self
      cases ht
  | cons t ts ih =>
    cases us with
    | nil =>
      obtain ⟨u, hu, -⟩ := h.exists_covering h' List.mem_cons_self
      cases hu
    | cons u us =>
      obtain rfl := h.head_eq h'
      rw [ih h.tail h'.tail]

end Partition

section Spacing

-- The texts of tokens with single spaces between them.
def spaced (tokens : List Token) : List Char := (" ".intercalate (tokens.map Token.text)).toList

def content (t : Token) : TokenKind × String := (t.kind, t.text)

variable {tokens : List Token} {tail : List Char}

theorem spaced_cons_cons (t u : Token) (tokens : List Token) :
    spaced (t :: u :: tokens) = t.text.toList ++ ' ' :: spaced (u :: tokens) := by
  simp [spaced]

-- A text of no characters at the end leaves only the space before it.
theorem exists_tail (tokens : List Token) {t : Token} (ht : t.text = "") : ∃ tail,
    spaced (tokens ++ [t]) = spaced tokens ++ tail ∧ ∀ c ∈ tail, isBlank c = true := by
  by_cases hne : tokens = []
  · exact ⟨[], by simp [hne, spaced, ht], by simp⟩
  · refine ⟨[' '], ?_, by simpa using by decide⟩
    have hmap : tokens.map Token.text ≠ [] := by simpa using hne
    rw [spaced, List.map_append, String.intercalate_append_of_ne_nil hmap (by simp)]
    simp [spaced, ht]

theorem splits_blanks (htail : ∀ c ∈ tail, isBlank c = true) (position : Nat) :
    Splits [] position tail [] := by
  induction tail generalizing position with
  | nil => exact .nil
  | cons c tail ih =>
    obtain ⟨hc, htail⟩ := List.forall_mem_cons.mp htail
    exact .blank hc (ih htail (position + 1))

theorem splits_word {t : Token} (ht : Longest t.text.toList t.kind t.text.toList)
    {cs : List Char} (hcs : ∀ c, cs.head? = some c → isBlank c = true) {position : Nat}
    (h : Splits [] (position + t.text.length) cs tokens) :
    Splits [] position (t.text.toList ++ cs) (⟨t.kind, t.text, position⟩ :: tokens) := by
  have hlongest : Longest (t.text.toList ++ (cs ++ [])) t.kind t.text.toList :=
    ht.before_blank (by rwa [List.append_nil])
  have hsplits : Splits [] position (t.text.toList ++ cs)
      (⟨t.kind, String.ofList t.text.toList, position⟩ :: tokens) := .token hlongest h
  rwa [String.ofList_toList] at hsplits

-- Texts that are lexemes by themselves are split where the spaces are.
theorem exists_splits_spaced (htokens : ∀ t ∈ tokens, Longest t.text.toList t.kind t.text.toList)
    (htail : ∀ c ∈ tail, isBlank c = true) (position : Nat) : ∃ tokens',
      Splits [] position (spaced tokens ++ tail) tokens' ∧
        tokens'.map content = tokens.map content := by
  induction tokens generalizing position with
  | nil => exact ⟨[], splits_blanks htail position, rfl⟩
  | cons t tokens ih =>
    obtain ⟨ht, htokens⟩ := List.forall_mem_cons.mp htokens
    cases tokens with
    | nil =>
      have hhead : ∀ c, tail.head? = some c → isBlank c = true :=
        fun c hc => htail c (List.mem_of_head? hc)
      refine ⟨[⟨t.kind, t.text, position⟩], ?_, rfl⟩
      rw [show spaced [t] = t.text.toList by simp [spaced]]
      exact splits_word ht hhead (splits_blanks htail _)
    | cons u tokens =>
      have hspace : isBlank ' ' = true := by decide
      obtain ⟨tokens', hsplits, hcontent⟩ := ih htokens (position + t.text.length + 1)
      refine ⟨⟨t.kind, t.text, position⟩ :: tokens', ?_, ?_⟩
      · rw [spaced_cons_cons, List.append_assoc]
        exact splits_word ht (by rintro _ ⟨⟩; exact hspace) (.blank hspace hsplits)
      · rw [List.map_cons, List.map_cons, hcontent]
        rfl

end Spacing

section Lines

variable {source front rest : List Char} {tokens line : List Token}

theorem Splits.scanLine (h : Splits [] 0 front tokens) :
    Token.scanLine front = .ok (tokens ++ [⟨.finish, "", front.length⟩]) := by
  have hscan : scan front = .ok tokens := by
    have hrun := h.scanFrom
    rw [List.append_nil] at hrun
    rw [scan, hrun]
    simp [Token.scanFrom]
  rw [Token.scanLine, hscan]
  rfl

theorem Splits.scanLine_stray {c : Char} {cs : List Char} (h : Splits (c :: cs) 0 front tokens)
    (hblank : isBlank c = false) (hnone : lexeme? c cs = none) :
    Token.scanLine (front ++ c :: cs) = .error ⟨c, front.length⟩ := by
  have hscan : scan (front ++ c :: cs) = .error ⟨c, front.length⟩ := by
    rw [scan, h.scanFrom, Nat.zero_add, Token.scanFrom, hblank, hnone]
    rfl
  rw [Token.scanLine, hscan]
  rfl

theorem splits_of_scanLine (h : Token.scanLine source = .ok line) :
    ∃ tokens, Splits [] 0 source tokens ∧ line = tokens ++ [⟨.finish, "", source.length⟩] := by
  obtain ⟨front, rest, tokens, rfl, hsplits, hend⟩ := exists_splits source 0
  cases rest with
  | nil =>
    rw [List.append_nil] at h ⊢
    exact ⟨tokens, hsplits, Except.ok.inj (h.symm.trans hsplits.scanLine)⟩
  | cons c cs =>
    obtain ⟨hblank, hnone⟩ := hend c cs rfl
    rw [hsplits.scanLine_stray hblank hnone] at h
    cases h

theorem splits_of_stray {stray : Stray} (h : Token.scanLine source = .error stray) :
    ∃ cs tokens, Splits (stray.character :: cs) 0 (source.take stray.position) tokens ∧
      source.drop stray.position = stray.character :: cs ∧ isBlank stray.character = false ∧
      lexeme? stray.character cs = none := by
  obtain ⟨front, rest, tokens, rfl, hsplits, hend⟩ := exists_splits source 0
  cases rest with
  | nil =>
    rw [List.append_nil, hsplits.scanLine] at h
    cases h
  | cons c cs =>
    obtain ⟨hblank, hnone⟩ := hend c cs rfl
    obtain rfl := Except.error.inj (h.symm.trans (hsplits.scanLine_stray hblank hnone))
    refine ⟨cs, tokens, ?_, List.drop_left, hblank, hnone⟩
    rwa [List.take_left]

-- The texts of the tokens, with or without that of the end, come back from between single spaces.
theorem exists_scanLine_spaced {position : Nat}
    (htokens : ∀ t ∈ tokens, Longest t.text.toList t.kind t.text.toList) {words : List Token}
    (hwords : words = tokens ∨ words = tokens ++ [⟨.finish, "", position⟩]) :
    ∃ line, Token.scanLine (spaced words) = .ok line ∧
      line.map content = tokens.map content ++ [(.finish, "")] := by
  obtain ⟨tail, hspaced, htail⟩ : ∃ tail, spaced words = spaced tokens ++ tail ∧
      ∀ c ∈ tail, isBlank c = true := by
    rcases hwords with rfl | rfl
    · exact ⟨[], (List.append_nil _).symm, by simp⟩
    · exact exists_tail tokens rfl
  obtain ⟨tokens', hsplits, hcontent⟩ := exists_splits_spaced htokens htail 0
  refine ⟨_, by rw [hspaced]; exact hsplits.scanLine, ?_⟩
  rw [List.map_append, hcontent]
  rfl

-- Main statement.
theorem scanLine_lossless (source : List Char) :
    (∀ line, Token.scanLine source = .ok line → ∃ tokens,
      line = tokens ++ [⟨.finish, "", source.length⟩] ∧
      Partition source 0 source.length tokens ∧
      (∀ tokens', Partition source 0 source.length tokens' → tokens' = tokens) ∧
      line.Pairwise (fun t u => t.position < u.position) ∧
      (∀ t ∈ line, t.text.toList = (source.drop t.position).take t.text.length) ∧
      ∀ words, words = tokens ∨ words = line → ∃ line',
        Token.scanLine (spaced words) = .ok line' ∧ line'.map content = line.map content) ∧
    ∀ stray, Token.scanLine source = .error stray → ∃ tokens,
      Partition source 0 stray.position tokens ∧
      (∀ tokens', Partition source 0 stray.position tokens' → tokens' = tokens) ∧
      Token.scanLine (source.take stray.position) =
        .ok (tokens ++ [⟨.finish, "", stray.position⟩]) ∧
      source[stray.position]? = some stray.character ∧ isBlank stray.character = false ∧
      ∀ kind word, Spelled kind word → ¬word <+: source.drop stray.position := by
  constructor
  · intro line h
    obtain ⟨tokens, hsplits, rfl⟩ := splits_of_scanLine h
    have hpartition := hsplits.partition (List.append_nil source).symm
    rw [Nat.zero_add] at hpartition
    refine ⟨tokens, rfl, hpartition, fun _ h' => h'.unique hpartition,
      hpartition.pairwise_position, fun t ht => ?_, fun words hwords => ?_⟩
    · rcases List.mem_append.mp ht with ht | ht
      · exact hpartition.text_eq ht
      · rw [List.mem_singleton.mp ht]
        rfl
    · obtain ⟨line', hscan, hcontent⟩ := exists_scanLine_spaced
        (fun t ht => (hpartition.longest t ht).alone) hwords
      exact ⟨line', hscan, by rw [hcontent, List.map_append]; rfl⟩
  · intro stray h
    obtain ⟨cs, tokens, hsplits, hdrop, hblank, hnone⟩ := splits_of_stray h
    have hfirst : source[stray.position]? = some stray.character := by
      rw [← Nat.add_zero stray.position, ← List.getElem?_drop, hdrop]
      rfl
    obtain ⟨hbound, -⟩ := List.getElem?_eq_some_iff.mp hfirst
    have hlength : (source.take stray.position).length = stray.position := by
      rw [List.length_take, min_eq_left hbound.le]
    have hpartition : Partition source 0 (0 + (source.take stray.position).length) tokens :=
      hsplits.partition (by rw [← hdrop, List.take_append_drop, List.drop_zero])
    have hscan := hsplits.cut.scanLine
    rw [Nat.zero_add] at hpartition
    rw [hlength] at hpartition hscan
    refine ⟨tokens, hpartition, fun _ h' => h'.unique hpartition, hscan, hfirst, hblank, ?_⟩
    rw [hdrop]
    exact lexeme?_eq_none.mp hnone

-- An exponent that ends where a name starts, and one that is given back before a stray character.
theorem scanLine_lossless_exponent :
    let line : List Token := [⟨.number, "2e5", 0⟩, ⟨.name, "x", 3⟩, ⟨.finish, "", 4⟩]
    Token.scanLine "2e5x".toList = .ok line ∧
    (∃ line', Token.scanLine "2e5 x ".toList = .ok line' ∧
      line'.map content = line.map content) ∧
    Token.scanLine "1e+$".toList = .error ⟨'$', 3⟩ ∧
    ∃ tokens, Partition "1e+$".toList 0 3 tokens ∧
      Token.scanLine "1e+".toList = .ok (tokens ++ [⟨.finish, "", 3⟩]) := by
  intro line
  have hline : Token.scanLine "2e5x".toList = .ok line := by decide +kernel
  have hstray : Token.scanLine "1e+$".toList = .error ⟨'$', 3⟩ := by decide +kernel
  obtain ⟨_, -, -, -, -, -, hspaced⟩ := (scanLine_lossless _).1 line hline
  obtain ⟨tokens, hpartition, -, hscan, -⟩ := (scanLine_lossless _).2 _ hstray
  exact ⟨hline, hspaced line (.inr rfl), hstray, tokens, hpartition, hscan⟩

end Lines

end Reckon.Token
