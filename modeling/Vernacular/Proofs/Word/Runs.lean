import Mathlib.Data.List.SplitBy
import Vernacular.Word.Replace

/-!
# Runs

A text falls into runs in one way only: every run is of one kind, and the next one is of the other
kind.  Replacing words goes along the runs: a run of separators is copied, and a run of word
characters is rewritten as a whole.
-/

namespace Vernacular.Separators

variable {s : Separators}

/-! ## Lists of runs -/

def runKind (s : Separators) (run : List Char) : SpanKind :=
  (run.head?.map s.kindOf).getD .separator

structure IsRun (s : Separators) (kind : SpanKind) (run : List Char) : Prop where
  nonempty : run ≠ []
  uniform : ∀ c ∈ run, s.kindOf c = kind

/-- A list of runs as some text falls into them. -/
inductive Alternating (s : Separators) : List (List Char) → Prop
  | nil : Alternating s []
  | cons {kind : SpanKind} {run : List Char} {rest : List (List Char)} (hrun : s.IsRun kind run)
      (hnext : ∀ next ∈ rest.head?, s.runKind next ≠ kind) (hrest : Alternating s rest) :
      Alternating s (run :: rest)

theorem kindOf_eq_separator {c : Char} : s.kindOf c = .separator ↔ s.contains c = true := by
  simp [kindOf]

theorem kindOf_eq_word {c : Char} : s.kindOf c = .word ↔ s.contains c = false := by
  simp [kindOf]

theorem IsRun.runKind_eq {kind : SpanKind} {run : List Char} (h : s.IsRun kind run) :
    s.runKind run = kind := by
  cases run with
  | nil => exact absurd rfl h.nonempty
  | cons c rest => exact h.uniform c List.mem_cons_self

theorem IsRun.isChain {kind : SpanKind} {run : List Char} (h : s.IsRun kind run) :
    run.IsChain (fun c d => s.alike c d = true) := by
  apply List.Pairwise.isChain
  refine List.pairwise_of_forall_mem_list ?_
  intro c hc d hd
  simp [alike, h.uniform c hc, h.uniform d hd]

theorem isRun_of_isChain {run : List Char} (hnonempty : run ≠ [])
    (h : run.IsChain (fun c d => s.alike c d = true)) : s.IsRun (s.runKind run) run := by
  refine ⟨hnonempty, ?_⟩
  induction run with
  | nil => exact absurd rfl hnonempty
  | cons c rest ih =>
    intro d hd
    cases rest with
    | nil =>
      obtain rfl := List.mem_singleton.mp hd
      rfl
    | cons next rest =>
      rw [List.isChain_cons_cons] at h
      have hkinds : s.kindOf c = s.kindOf next := by simpa [alike] using h.1
      rcases List.mem_cons.mp hd with rfl | hlater
      · rfl
      · exact (ih (List.cons_ne_nil _ _) h.2 d hlater).trans hkinds.symm

/-! ## A text and its runs -/

theorem alternating_of_isChain {runs : List (List Char)}
    (hruns : ∀ run ∈ runs, s.IsRun (s.runKind run) run)
    (hchain : runs.IsChain fun a b => ∃ ha hb, s.alike (a.getLast ha) (b.head hb) = false) :
    s.Alternating runs := by
  induction runs with
  | nil => exact .nil
  | cons run rest ih =>
    rw [List.isChain_cons] at hchain
    have hrun := hruns run List.mem_cons_self
    refine .cons hrun ?_ (ih (fun r hr => hruns r (List.mem_cons_of_mem _ hr)) hchain.2)
    intro next hnext hsame
    obtain ⟨hlast, hhead, hdiffer⟩ := hchain.1 next hnext
    have hmem : next ∈ run :: rest := List.mem_cons_of_mem _ (List.mem_of_mem_head? hnext)
    have hkind : s.kindOf (run.getLast hlast) = s.kindOf (next.head hhead) := by
      rw [hrun.uniform _ (List.getLast_mem hlast),
        (hruns next hmem).uniform _ (List.head_mem hhead), hsame]
    simp [alike, hkind] at hdiffer

theorem alternating_runs (s : Separators) (text : List Char) : s.Alternating (s.runs text) :=
  alternating_of_isChain
    (fun _ hrun => isRun_of_isChain (List.ne_nil_of_mem_splitBy hrun)
      (List.isChain_of_mem_splitBy hrun))
    (List.isChain_getLast_head_splitBy s.alike text)

theorem flatten_runs (s : Separators) (text : List Char) : (s.runs text).flatten = text :=
  List.flatten_splitBy s.alike text

theorem Alternating.isRun {runs : List (List Char)} (h : s.Alternating runs) :
    ∀ run ∈ runs, s.IsRun (s.runKind run) run := by
  induction h with
  | nil => simp
  | cons hrun hnext hrest ih =>
    rw [List.forall_mem_cons]
    exact ⟨hrun.runKind_eq ▸ hrun, ih⟩

theorem Alternating.runs_flatten {runs : List (List Char)} (h : s.Alternating runs) :
    s.runs runs.flatten = runs := by
  apply List.splitBy_flatten
  · exact fun hnil => (h.isRun [] hnil).nonempty rfl
  · exact fun run hrun => (h.isRun run hrun).isChain
  · induction h with
    | nil => exact .nil
    | @cons kind run rest hrun hnext hrest ih =>
      refine List.isChain_cons.mpr ⟨?_, ih⟩
      intro next hmem
      have hnextRun := hrest.isRun next (List.mem_of_mem_head? hmem)
      refine ⟨hrun.nonempty, hnextRun.nonempty, ?_⟩
      have hlast := hrun.uniform _ (List.getLast_mem hrun.nonempty)
      have hhead := hnextRun.uniform _ (List.head_mem hnextRun.nonempty)
      simpa [alike, hlast, hhead] using (hnext next hmem).symm

/-! ## Rewriting run by run -/

variable {rewrite : List Char → List Char}

def rewriteRun (s : Separators) (rewrite : List Char → List Char) (run : List Char) : List Char :=
  match s.runKind run with
  | .word => rewrite run
  | .separator => run

theorem replaceFrom_boundary (pending : List Char) {rest : List Char}
    (hrest : ∀ c ∈ rest.head?, s.contains c = true) :
    s.replaceFrom rewrite pending rest =
      flushWord rewrite pending ++ s.replaceFrom rewrite [] rest := by
  cases rest with
  | nil => simp [replaceFrom, flushWord]
  | cons c rest =>
    have hc : s.contains c = true := hrest c rfl
    simp [replaceFrom, hc, flushWord]

/-- A separator ends the word before it, so the texts on its two sides are rewritten apart. -/
theorem replaceFrom_cut (pending before after : List Char) {c : Char} (hc : s.contains c = true) :
    s.replaceFrom rewrite pending (before ++ c :: after) =
      s.replaceFrom rewrite pending before ++ c :: s.replaceFrom rewrite [] after := by
  induction before generalizing pending with
  | nil => simp [replaceFrom, hc]
  | cons d before ih =>
    by_cases hd : s.contains d = true
    · simp [replaceFrom, hd, ih []]
    · simp [replaceFrom, hd, ih (d :: pending)]

theorem replaceFrom_wordChars (pending : List Char) {run : List Char} (rest : List Char)
    (hrun : ∀ c ∈ run, s.contains c = false) :
    s.replaceFrom rewrite pending (run ++ rest) =
      s.replaceFrom rewrite (run.reverse ++ pending) rest := by
  induction run generalizing pending with
  | nil => rfl
  | cons c run ih =>
    rw [List.forall_mem_cons] at hrun
    simp [replaceFrom, hrun.1, ih (c :: pending) hrun.2]

theorem replaceFrom_separators {run : List Char} (rest : List Char)
    (hrun : ∀ c ∈ run, s.contains c = true) :
    s.replaceFrom rewrite [] (run ++ rest) = run ++ s.replaceFrom rewrite [] rest := by
  induction run with
  | nil => rfl
  | cons c run ih =>
    rw [List.forall_mem_cons] at hrun
    simp [replaceFrom, hrun.1, flushWord, ih hrun.2]

theorem flushWord_reverse {run : List Char} (hrun : run ≠ []) :
    flushWord rewrite run.reverse = rewrite run := by
  cases hreverse : run.reverse with
  | nil => exact absurd (List.reverse_eq_nil_iff.mp hreverse) hrun
  | cons c pending =>
    change rewrite (c :: pending).reverse = rewrite run
    rw [← hreverse, List.reverse_reverse]

theorem Alternating.separator_head {rest : List (List Char)} (h : s.Alternating rest)
    (rewrite : List Char → List Char) (hnext : ∀ next ∈ rest.head?, s.runKind next ≠ .word) :
    ∀ c ∈ (rest.map (s.rewriteRun rewrite)).flatten.head?, s.contains c = true := by
  cases h with
  | nil => simp
  | @cons kind run later hrun _ _ =>
    have hkind : s.runKind run = .separator := by
      cases hk : s.runKind run with
      | word => exact absurd hk (hnext run rfl)
      | separator => rfl
    obtain ⟨c, tail, rfl⟩ := List.exists_cons_of_ne_nil hrun.nonempty
    intro d hd
    have hdc : c = d := by simpa [rewriteRun, hkind] using hd
    subst hdc
    exact kindOf_eq_separator.mp hkind

theorem map_rewriteRun_id (runs : List (List Char)) : runs.map (s.rewriteRun id) = runs := by
  have hid : s.rewriteRun id = id := by
    funext run
    unfold rewriteRun
    cases s.runKind run <;> rfl
  rw [hid, List.map_id]

theorem Alternating.separator_head_flatten {rest : List (List Char)} (h : s.Alternating rest)
    (hnext : ∀ next ∈ rest.head?, s.runKind next ≠ .word) :
    ∀ c ∈ rest.flatten.head?, s.contains c = true := by
  simpa only [map_rewriteRun_id] using h.separator_head id hnext

theorem Alternating.replaceFrom_flatten {runs : List (List Char)} (h : s.Alternating runs)
    (rewrite : List Char → List Char) :
    s.replaceFrom rewrite [] runs.flatten = (runs.map (s.rewriteRun rewrite)).flatten := by
  induction h with
  | nil => rfl
  | @cons kind run rest hrun hnext hrest ih =>
    rw [List.flatten_cons, List.map_cons, List.flatten_cons]
    cases kind with
    | separator =>
      have hchars : ∀ c ∈ run, s.contains c = true :=
        fun c hc => kindOf_eq_separator.mp (hrun.uniform c hc)
      rw [replaceFrom_separators _ hchars, ih, rewriteRun, hrun.runKind_eq]
    | word =>
      have hchars : ∀ c ∈ run, s.contains c = false :=
        fun c hc => kindOf_eq_word.mp (hrun.uniform c hc)
      -- The next run ends the word, so what is pending is written out before it.
      have hboundary := hrest.separator_head_flatten hnext
      rw [replaceFrom_wordChars [] _ hchars, List.append_nil, replaceFrom_boundary _ hboundary,
        flushWord_reverse hrun.nonempty, ih, rewriteRun, hrun.runKind_eq]

/-- Reading character by character rewrites the runs of a text one by one. -/
theorem replaceFrom_eq_flatten (s : Separators) (rewrite : List Char → List Char)
    (text : List Char) :
    s.replaceFrom rewrite [] text = ((s.runs text).map (s.rewriteRun rewrite)).flatten := by
  have h := (s.alternating_runs text).replaceFrom_flatten rewrite
  rwa [flatten_runs] at h

theorem rewriteRun_isRun {kind : SpanKind} {run : List Char} (hrun : s.IsRun kind run)
    (hword : kind = .word → s.IsRun .word (rewrite run)) :
    s.IsRun kind (s.rewriteRun rewrite run) := by
  rw [rewriteRun, hrun.runKind_eq]
  cases kind with
  | word => exact hword rfl
  | separator => exact hrun

theorem Alternating.map_rewriteRun {runs : List (List Char)} (h : s.Alternating runs)
    (hword : ∀ run ∈ runs, s.runKind run = .word → s.IsRun .word (rewrite run)) :
    s.Alternating (runs.map (s.rewriteRun rewrite)) := by
  induction h with
  | nil => exact .nil
  | @cons kind run rest hrun hnext hrest ih =>
    rw [List.forall_mem_cons] at hword
    have hfirst := rewriteRun_isRun hrun fun hkind => hword.1 (hrun.runKind_eq.trans hkind)
    refine .cons hfirst ?_ (ih hword.2)
    intro next hmem
    rw [List.head?_map, Option.mem_def, Option.map_eq_some_iff] at hmem
    obtain ⟨old, hold, rfl⟩ := hmem
    have hrewritten := rewriteRun_isRun (hrest.isRun old (List.mem_of_mem_head? hold))
      (hword.2 old (List.mem_of_mem_head? hold))
    rw [hrewritten.runKind_eq]
    exact hnext old hold

/-! ## Texts that rewriting leaves alone -/

theorem append_inj_of_boundary {a b rest later : List Char}
    (ha : ∀ c ∈ a, s.contains c = false) (hb : ∀ c ∈ b, s.contains c = false)
    (hrest : ∀ c ∈ rest.head?, s.contains c = true)
    (hlater : ∀ c ∈ later.head?, s.contains c = true) (h : a ++ rest = b ++ later) :
    a = b ∧ rest = later := by
  rcases List.append_eq_append_iff.mp h with ⟨extra, rfl, rfl⟩ | ⟨extra, rfl, rfl⟩
  · cases extra with
    | nil => simp
    | cons c extra =>
      have hword := hb c (by simp)
      rw [hrest c rfl] at hword
      exact absurd hword (by decide)
  · cases extra with
    | nil => simp
    | cons c extra =>
      have hword := ha c (by simp)
      rw [hlater c rfl] at hword
      exact absurd hword (by decide)

theorem IsRun.countP_le {kind : SpanKind} {run : List Char} (h : s.IsRun kind run) :
    run.countP s.contains ≤ (s.rewriteRun rewrite run).countP s.contains := by
  rw [rewriteRun, h.runKind_eq]
  cases kind with
  | separator => exact Nat.le_refl _
  | word =>
    have hnone : run.countP s.contains = 0 := by
      rw [List.countP_eq_zero]
      intro c hc
      simp [kindOf_eq_word.mp (h.uniform c hc)]
    omega

theorem Alternating.countP_le {runs : List (List Char)} (h : s.Alternating runs)
    (rewrite : List Char → List Char) :
    runs.flatten.countP s.contains ≤
      ((runs.map (s.rewriteRun rewrite)).flatten).countP s.contains := by
  induction h with
  | nil => exact Nat.le_refl _
  | cons hrun hnext hrest ih =>
    rw [List.flatten_cons, List.map_cons, List.flatten_cons, List.countP_append,
      List.countP_append]
    exact Nat.add_le_add hrun.countP_le ih

/-- Changed words cannot make up for one another: the text is the same only if every run is. -/
theorem Alternating.flatten_map_rewriteRun_eq_iff {runs : List (List Char)}
    (h : s.Alternating runs) :
    (runs.map (s.rewriteRun rewrite)).flatten = runs.flatten ↔
      ∀ run ∈ runs, s.rewriteRun rewrite run = run := by
  constructor
  · intro hsame
    induction h with
    | nil => simp
    | @cons kind run rest hrun hnext hrest ih =>
      rw [List.map_cons, List.flatten_cons, List.flatten_cons] at hsame
      have hfirst : s.rewriteRun rewrite run = run ∧
          (rest.map (s.rewriteRun rewrite)).flatten = rest.flatten := by
        cases kind with
        | separator =>
          have hcopied : s.rewriteRun rewrite run = run := by rw [rewriteRun, hrun.runKind_eq]
          rw [hcopied] at hsame
          exact ⟨hcopied, List.append_cancel_left hsame⟩
        | word =>
          have hchars : ∀ c ∈ run, s.contains c = false :=
            fun c hc => kindOf_eq_word.mp (hrun.uniform c hc)
          -- No separator is lost in the rest, so none is left for the rewritten word to hold.
          have hcount := congrArg (List.countP s.contains) hsame
          rw [List.countP_append, List.countP_append] at hcount
          have hrunCount : run.countP s.contains = 0 := by
            rw [List.countP_eq_zero]
            intro c hc
            simp [hchars c hc]
          have hrestCount := hrest.countP_le rewrite
          have hnone : (s.rewriteRun rewrite run).countP s.contains = 0 := by omega
          have hrewritten : ∀ c ∈ s.rewriteRun rewrite run, s.contains c = false := by
            intro c hc
            simpa using List.countP_eq_zero.mp hnone c hc
          exact append_inj_of_boundary hrewritten hchars (hrest.separator_head rewrite hnext)
            (hrest.separator_head_flatten hnext) hsame
      exact List.forall_mem_cons.mpr ⟨hfirst.1, ih hfirst.2⟩
  · intro hruns
    rw [List.map_congr_left hruns, List.map_id']

end Vernacular.Separators
