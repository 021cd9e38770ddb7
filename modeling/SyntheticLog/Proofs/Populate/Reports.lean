import SyntheticLog.Proofs.Populate.Prefix

/-!
# What a run reports on its way

A run reports every round number of rows, and only when so many lines are with its writer.

* `milestones`: the round numbers up to some number of rows.
* `Moment.Quiet`: a step that moves bytes and counts nothing.
* `Moment.Reported`: at every moment, the milestones up to the rows counted are reported, and the
  lines of these rows are written.
* `writeFile_events`: what a whole run has reported at its end.
-/

set_option autoImplicit false

namespace SyntheticLog

open SyntheticLog.Random Log

/-! ## Round numbers -/

/-- The multiples of the interval between reports, from the first one up to `rows`. -/
def milestones (rows : Nat) : List Nat :=
  (List.range (rows / progressInterval)).map fun i => (i + 1) * progressInterval

theorem milestones_succ (rows : Nat) :
    milestones (rows + 1) =
      milestones rows ++ if (rows + 1) % progressInterval = 0 then [rows + 1] else [] := by
  unfold milestones progressInterval
  by_cases h : (rows + 1) % 10000 = 0
  · have hdiv : (rows + 1) / 10000 = rows / 10000 + 1 := by omega
    have hlast : (rows / 10000 + 1) * 10000 = rows + 1 := by omega
    rw [if_pos h, hdiv, List.range_succ, List.map_append, List.map_singleton, hlast]
  · have hdiv : (rows + 1) / 10000 = rows / 10000 := by omega
    rw [if_neg h, hdiv, List.append_nil]

theorem length_milestones (rows : Nat) : (milestones rows).length = rows / progressInterval := by
  simp [milestones]

theorem milestones_increasing (rows : Nat) : (milestones rows).Pairwise (· < ·) := by
  rw [milestones, List.pairwise_map]
  refine List.pairwise_lt_range.imp ?_
  intro i j hij
  unfold progressInterval
  omega

theorem mem_milestones_iff {rows k : Nat} :
    k ∈ milestones rows ↔ 0 < k ∧ progressInterval ∣ k ∧ k ≤ rows := by
  simp only [milestones, List.mem_map, List.mem_range]
  unfold progressInterval
  constructor
  · rintro ⟨i, hi, rfl⟩
    omega
  · rintro ⟨hpos, hdvd, hle⟩
    exact ⟨k / 10000 - 1, by omega, by omega⟩

theorem milestones_isPrefix {rows n : Nat} (h : rows ≤ n) : milestones rows <+: milestones n := by
  have hdiv : rows / progressInterval ≤ n / progressInterval := Nat.div_le_div_right h
  obtain ⟨k, hk⟩ := Nat.exists_eq_add_of_le hdiv
  rw [milestones, milestones, hk, List.range_add, List.map_append]
  exact List.prefix_append _ _

/-- The reports on the round numbers up to `rows`. -/
def progressReports (rows : Nat) : List Event := (milestones rows).map .progress

theorem progressReports_zero : progressReports 0 = [] := by
  simp [progressReports, milestones]

theorem Job.toList_report {rows : Nat} {events : Array Event}
    (h : events.toList = progressReports rows) :
    (report (rows + 1) events).toList = progressReports (rows + 1) := by
  rw [report, progressReports, milestones_succ, List.map_append]
  split
  · rw [Array.toList_push, h]
    rfl
  · rw [h, List.map_nil, List.append_nil]
    rfl

namespace Moment

variable {σ : Type}

/-! ## Steps that count nothing -/

/-- Between the moments no row is begun or counted; the run goes on as planned, or fails. -/
structure Quiet (m m' : Moment σ) : Prop where
  rows : m'.job.rows = m.job.rows
  events : m'.job.events = m.job.events
  started : m'.started = m.started
  plan : m'.plan = m.plan ∨ m'.plan = .finished
  result : ∀ t, m'.result = some (.ok t) → m.result = some (.ok t)

theorem quiet_refused (m : Moment σ) (e : PopulateError) (w : Writer) :
    Quiet m ((m.withWriter w).refused e) := by
  obtain ⟨⟨g, w', rows, events⟩, activity, plan, started, _ | r⟩ := m
  · exact ⟨rfl, rfl, rfl, Or.inr rfl, by rintro t ⟨⟩⟩
  · exact ⟨rfl, rfl, rfl, Or.inr rfl, fun t h => h⟩

theorem quiet_stored (m : Moment σ) (c : Cause) (piece : ByteArray) :
    Quiet m (m.stored c piece) := by
  obtain ⟨⟨g, ⟨file, kept, capacity⟩, rows, events⟩, activity, plan, started, result⟩ := m
  simp only [stored]
  split <;> exact ⟨rfl, rfl, rfl, Or.inl rfl, fun _ h => h⟩

theorem quiet_drained (m : Moment σ) (c : Cause) (piece : Option ByteArray) :
    Quiet m (m.drained c piece) := by
  obtain ⟨⟨g, ⟨file, kept, capacity⟩, rows, events⟩, activity, plan, started, result⟩ := m
  simp only [drained]
  split
  · cases piece with
    | none => exact ⟨rfl, rfl, rfl, Or.inl rfl, fun _ h => h⟩
    | some p => exact quiet_stored _ c p
  · cases OpenFile.offer kept file with
    | ok k f => exact ⟨rfl, rfl, rfl, Or.inl rfl, fun _ h => h⟩
    | error e f => exact quiet_refused _ _ _

theorem quiet_passed (m : Moment σ) (c : Cause) (rest : ByteArray) : Quiet m (m.passed c rest) := by
  obtain ⟨⟨g, ⟨file, kept, capacity⟩, rows, events⟩, activity, plan, started, result⟩ := m
  simp only [passed]
  split
  · exact ⟨rfl, rfl, rfl, Or.inl rfl, fun _ h => h⟩
  · cases OpenFile.offer rest file with
    | ok k f => exact ⟨rfl, rfl, rfl, Or.inl rfl, fun _ h => h⟩
    | error e f => exact quiet_refused _ _ _

theorem quiet_put (m : Moment σ) (p : Piece) : Quiet m (m.put p) := by
  simp only [put]
  split
  · exact ⟨rfl, rfl, rfl, Or.inl rfl, fun _ h => h⟩
  · exact quiet_stored m _ _

/-- Handing over the bytes kept back moves them into the file, and no more. -/
theorem written_drained (m : Moment σ) (c : Cause) : (m.drained c none).written = m.written := by
  obtain ⟨⟨g, ⟨file, kept, capacity⟩, rows, events⟩, activity, plan, started, result⟩ := m
  simp only [drained]
  split
  · rfl
  · cases ho : OpenFile.offer kept file with
    | ok k f => exact OpenFile.offer_split ho
    | error e f =>
      have hsame : f.taken ++ kept = file.taken ++ kept := by rw [OpenFile.offer_error ho]
      cases result <;> exact hsame

/-! ## Reports -/

variable [WordSource σ]

/-- How many of the rows begun are counted: all of them between the lines, and all but the last
within one. A run that has failed may have done so there or here. -/
def Counted (g : Generator σ) (m : Moment σ) : Plan → Prop
  | .line _ _ => m.job.rows + 1 = m.started
  | .rows _ | .size => m.job.rows = m.started
  | .finished =>
    m.job.rows + 1 = m.started ∨
      m.job.rows = m.started ∧ m.written = Record.lines (g.upcoming m.started)

/-- What is reported at a moment: the round numbers of the rows counted. -/
structure Reported (g : Generator σ) (m : Moment σ) : Prop where
  events : m.job.events.toList = progressReports m.job.rows
  all : (g.upcoming m.job.rows).length = m.job.rows
  counted : Counted g m m.plan
  tally : ∀ t, m.result = some (.ok t) → t.rows = m.job.rows ∧ m.job.rows = m.started

variable {g : Generator σ} {n : Nat} {m m' : Moment σ}

theorem reported_start (capacity : Nat) (file : OpenFile) (g : Generator σ) (n : Nat) :
    Reported g (start capacity file g n) :=
  ⟨progressReports_zero.symm, rfl, rfl, by rintro t ⟨⟩⟩

theorem Reported.quiet (h : Reported g m) (hq : Quiet m m')
    (hcounted : Counted g m' m'.plan) : Reported g m' where
  events := by rw [hq.events, hq.rows, h.events]
  all := by rw [hq.rows, h.all]
  counted := hcounted
  tally t ht := by
    rw [hq.rows, hq.started]
    exact h.tally t (hq.result t ht)

theorem Reported.within_line (h : Reported g m) (hq : Quiet m m') {ps : List Piece} {left : Nat}
    (hplan : m.plan = .line ps left) : Reported g m' := by
  have hcounted := h.counted
  rw [hplan, Counted] at hcounted
  refine h.quiet hq ?_
  rcases hq.plan with hsame | hfinished
  · rw [hsame, hplan, Counted, hq.rows, hq.started]
    exact hcounted
  · rw [hfinished, Counted, hq.rows, hq.started]
    exact Or.inl hcounted

/-- Behind the lines, the bytes kept back are handed over, which changes nothing of what is
written. -/
theorem Reported.behind_lines (h : Reported g m) (c : Cause)
    (hplan : m.plan = .size ∧ m.written = Record.lines (g.upcoming m.started) ∨
      m.plan = .finished) : Reported g (m.drained c none) := by
  have hq := quiet_drained m c none
  have hcounted := h.counted
  have hwritten := written_drained m c
  refine h.quiet hq ?_
  rcases hplan with ⟨hsize, hlines⟩ | hfinished
  · rw [hsize, Counted] at hcounted
    rcases hq.plan with hsame | hfinished
    · rw [hsame, hsize, Counted, hq.rows, hq.started]
      exact hcounted
    · rw [hfinished, Counted, hq.rows, hq.started, hwritten]
      exact Or.inr ⟨hcounted, hlines⟩
  · have hplan : (m.drained c none).plan = .finished := hq.plan.elim (·.trans hfinished) id
    rw [hfinished] at hcounted
    rw [hplan, Counted, hq.rows, hq.started, hwritten]
    exact hcounted

theorem Reported.next (h : Reported g m) (hm : Phase g n m) (hnext : m.next? = some m') :
    Reported g m' := by
  cases hm with
  | @line w rows events activity ps left k hk all sound alone past ahead =>
    cases activity with
    | draining c piece =>
      cases hnext
      exact h.within_line (quiet_drained _ _ _) rfl
    | passing c rest =>
      cases hnext
      exact h.within_line (quiet_passed _ _ _) rfl
    | idle =>
      cases ps with
      | cons p ps =>
        cases hnext
        have hpopped : Reported g ⟨⟨g.advance k, w, rows, events⟩, .idle, .line ps left, k, none⟩ :=
          ⟨h.events, h.all, h.counted, h.tally⟩
        exact hpopped.within_line (quiet_put _ p) rfl
      | nil =>
        cases hnext
        have hrows : rows + 1 = k := h.counted
        subst hrows
        exact ⟨Job.toList_report h.events, all, rfl, by rintro t ⟨⟩⟩
  | @rows w rows events left k hk all sound written =>
    have hrows : rows = k := h.counted
    subst hrows
    cases left with
    | zero =>
      cases hnext
      exact ⟨h.events, all, rfl, by rintro t ⟨⟩⟩
    | succ left =>
      cases hnext
      simp only [begun]
      cases Generator.build (g.advance rows) with
      | ok r g' => exact ⟨h.events, all, rfl, by rintro t ⟨⟩⟩
      | error e g' => exact ⟨h.events, all, Or.inl rfl, by rintro t ⟨⟩⟩
  | @ending w rows events all written =>
    cases hnext
    exact h.behind_lines _ (Or.inl ⟨rfl, written⟩)
  | @ended w rows events all written pending =>
    cases hnext
    have hrows : rows = n := h.counted
    subst hrows
    simp only [measured]
    split
    · refine ⟨h.events, all, Or.inr ⟨rfl, written⟩, ?_⟩
      intro t ht
      cases ht
      exact ⟨rfl, rfl⟩
    · exact ⟨h.events, all, Or.inr ⟨rfl, written⟩, by rintro t ⟨⟩⟩
  | @finished w rows events activity k r hk closing past ahead settled =>
    rcases closing with hidle | hclosing
    · subst hidle
      cases hnext
    · subst hclosing
      cases hnext
      exact h.behind_lines _ (Or.inr rfl)

theorem Reported.reaches (h : Reported g m) (hm : Phase g n m) (hreaches : m.Reaches m') :
    Reported g m' := by
  induction hreaches with
  | refl => exact h
  | tail hfirst hstep ih => exact ih.next (hm.reaches hfirst) hstep

/-- The lines of the rows that are counted are written. -/
theorem Reported.begins (h : Reported g m) (hm : Phase g n m) :
    m.job.rows ≤ n ∧ Begins (Record.lines (g.upcoming m.job.rows)) m.written := by
  obtain ⟨hstarted, -, hpast, -⟩ := hm.bounds
  have hbefore (hrows : m.job.rows + 1 = m.started) :
      m.job.rows ≤ n ∧ Begins (Record.lines (g.upcoming m.job.rows)) m.written := by
    rw [← hrows, Nat.add_sub_cancel] at hpast
    exact ⟨by omega, hpast⟩
  have hall (hrows : m.job.rows = m.started)
      (hwritten : m.written = Record.lines (g.upcoming m.started)) :
      m.job.rows ≤ n ∧ Begins (Record.lines (g.upcoming m.job.rows)) m.written := by
    rw [hwritten, hrows]
    exact ⟨hstarted, .refl _⟩
  cases hm with
  | line => exact hbefore h.counted
  | rows hk all sound written => exact hall h.counted written
  | ending all written => exact hall h.counted written
  | ended all written pending => exact hall h.counted written
  | finished =>
    rcases h.counted with hrows | ⟨hrows, hwritten⟩
    · exact hbefore hrows
    · exact hall hrows hwritten

end Moment

/-! ## Whole runs -/

variable {σ : Type} [WordSource σ]

/-- These events are the reports of a run of `n` rows: on all round numbers and then on the success,
or, if the run fails, on the round numbers up to some row. -/
def Reports {ε : Type} (n : Nat) (events : List Event) : Except ε Tally → Prop
  | .ok t => t.rows = n ∧ events = progressReports n ++ [.complete n t.size]
  | .error _ => ∃ rows, rows ≤ n ∧ events = progressReports rows

namespace Moment
variable {g : Generator σ} {n : Nat} {m : Moment σ}

theorem reported_of_reaches {capacity : Nat} {b : Behaviour}
    (h : (start capacity (.fresh b) g n).Reaches m) : Reported g m :=
  (reported_start capacity (.fresh b) g n).reaches (phase_start capacity b g n) h

theorem Reported.outcome {w : Written σ} (h : Reported g m) (hm : Phase g n m)
    (hw : m.outcome? = some w) : Reports n w.events w.result := by
  obtain ⟨hrows, -⟩ := h.begins hm
  obtain ⟨hsettled, -, -⟩ := hm.settled hw
  have hevents := h.events
  have htally := h.tally
  obtain ⟨⟨g', v, rows, events⟩, activity, plan, started, _ | _ | t⟩ := m
  · cases hw
  · cases hw
    exact ⟨rows, hrows, hevents⟩
  · cases hw
    obtain ⟨hstarted, -, -⟩ := hsettled.taken t rfl
    obtain ⟨hcounted, hall⟩ := htally t rfl
    -- All rows are begun, and all rows begun are counted.
    have hn : rows = n := hall.trans hstarted
    have ht : t.rows = n := hcounted.trans hn
    refine ⟨ht, ?_⟩
    rw [Array.toList_push, hevents, ht, hn]

end Moment

theorem writeFile_events (capacity : Nat) (b : Behaviour) (g : Generator σ) (n : Nat) :
    Reports n (writeFile capacity (.fresh b) g n).events
      (writeFile capacity (.fresh b) g n).result := by
  obtain ⟨last, hlast, -, houtcome⟩ := writeFile_reaches capacity (.fresh b) g n
  have hphase := (Moment.phase_start capacity b g n).reaches hlast
  exact (Moment.reported_of_reaches hlast).outcome hphase houtcome

end SyntheticLog
