import Mathlib
import OracleServer.Lib.Machine

/-! A rolling window of places over a queue of jobs, against a clock. A queued job may
start whenever a place is free, and a place is free again the moment the job in it is
done. Time passes only when no job can start. The time from start to end of a job is
measured, not given; the bounds below are on the time the whole queue takes, in terms of
the times its jobs took. -/
namespace OracleServer

inductive Window.Stage
  | queued
  | active
  | done
  deriving DecidableEq, Repr

structure Window (J : Type*) where
  stage : J → Window.Stage
  now : ℕ
  began : J → ℕ
  ended : J → ℕ

namespace Window
variable {J : Type*} [DecidableEq J]

inductive Event (J : Type*)
  | start (j : J)
  | finish (j : J)
  | pass (d : ℕ)

def started (s : Window J) (j : J) : Window J :=
  { s with
    stage := Function.update s.stage j .active
    began := Function.update s.began j s.now }

def finished (s : Window J) (j : J) : Window J :=
  { s with
    stage := Function.update s.stage j .done
    ended := Function.update s.ended j s.now }

section Fields
variable {s : Window J} {i j : J}

@[simp] theorem started_now : (s.started j).now = s.now := rfl
@[simp] theorem started_ended : (s.started j).ended = s.ended := rfl
@[simp] theorem started_stage_self : (s.started j).stage j = .active := by simp [started]
@[simp] theorem started_began_self : (s.started j).began j = s.now := by simp [started]
@[simp] theorem started_stage_of_ne (h : i ≠ j) : (s.started j).stage i = s.stage i := by
  simp [started, h]
@[simp] theorem started_began_of_ne (h : i ≠ j) : (s.started j).began i = s.began i := by
  simp [started, h]

@[simp] theorem finished_now : (s.finished j).now = s.now := rfl
@[simp] theorem finished_began : (s.finished j).began = s.began := rfl
@[simp] theorem finished_stage_self : (s.finished j).stage j = .done := by simp [finished]
@[simp] theorem finished_ended_self : (s.finished j).ended j = s.now := by simp [finished]
@[simp] theorem finished_stage_of_ne (h : i ≠ j) : (s.finished j).stage i = s.stage i := by
  simp [finished, h]
@[simp] theorem finished_ended_of_ne (h : i ≠ j) : (s.finished j).ended i = s.ended i := by
  simp [finished, h]

end Fields

variable (jobs : Finset J) (places : ℕ)

/-- How many places are taken. -/
def running (s : Window J) : ℕ := (jobs.filter fun j => s.stage j = .active).card

def Waiting (s : Window J) : Prop := ∃ j ∈ jobs, s.stage j = .queued

instance (s : Window J) : Decidable (s.Waiting jobs) :=
  inferInstanceAs (Decidable (∃ j ∈ jobs, s.stage j = .queued))

def Over (s : Window J) : Prop := ∀ j ∈ jobs, s.stage j = .done

instance (s : Window J) : Decidable (s.Over jobs) :=
  inferInstanceAs (Decidable (∀ j ∈ jobs, s.stage j = .done))

def step (s : Window J) : Event J → Option (Window J)
  | .start j =>
    if j ∈ jobs ∧ s.stage j = .queued ∧ s.running jobs < places then
      some (s.started j)
    else none
  | .finish j =>
    if j ∈ jobs ∧ s.stage j = .active then
      some (s.finished j)
    else none
  | .pass d =>
    if (s.Waiting jobs → places ≤ s.running jobs) ∧ ¬s.Over jobs then
      some { s with now := s.now + d }
    else none

/-- How long a job has held a place. -/
def held (s : Window J) (j : J) : ℕ :=
  match s.stage j with
  | .queued => 0
  | .active => s.now - s.began j
  | .done => s.ended j - s.began j

def work (s : Window J) : ℕ := ∑ j ∈ jobs, s.held j

/-- What holds in every state of a run: the places are never overfilled, they have all been
held while a job waited, and a job started as soon as the work before it allowed. -/
structure Rolls (s : Window J) : Prop where
  room : s.running jobs ≤ places
  past : ∀ j ∈ jobs, s.stage j ≠ .queued → s.began j ≤ s.now
  order : ∀ j ∈ jobs, s.stage j = .done → s.began j ≤ s.ended j
  capacity : s.work jobs ≤ places * s.now
  full : s.Waiting jobs → places * s.now ≤ s.work jobs
  prompt : ∀ j ∈ jobs, s.stage j ≠ .queued → places * s.began j + s.held j ≤ s.work jobs
  last : s.Over jobs → s.now = 0 ∨ ∃ j ∈ jobs, s.ended j = s.now
  opened : s.Waiting jobs → s.running jobs < places →
    s.now = 0 ∨ ∃ i ∈ jobs, s.stage i = .done ∧ s.ended i = s.now
  follows : ∀ j ∈ jobs, s.stage j ≠ .queued →
    s.began j = 0 ∨ ∃ i ∈ jobs, s.stage i = .done ∧ s.ended i = s.began j

variable {jobs places} {s s' : Window J} {j : J} {d : ℕ}

omit [DecidableEq J] in
theorem rolls_opening (hqueued : ∀ j ∈ jobs, s.stage j = .queued) (hnow : s.now = 0) :
    s.Rolls jobs places where
  room := by
    have hnone : (jobs.filter fun j => s.stage j = .active) = ∅ :=
      Finset.filter_eq_empty_iff.mpr fun j hj => by simp [hqueued j hj]
    simp [running, hnone]
  past j hj hq := absurd (hqueued j hj) hq
  order j hj hd := by simp [hqueued j hj] at hd
  capacity := by
    have hzero : s.work jobs = 0 :=
      Finset.sum_eq_zero fun j hj => by simp [held, hqueued j hj]
    simp [hzero]
  full _ := by simp [hnow]
  prompt j hj hq := absurd (hqueued j hj) hq
  last _ := .inl hnow
  opened _ _ := .inl hnow
  follows j hj hq := absurd (hqueued j hj) hq

theorem step_start (h : s.step jobs places (.start j) = some s') :
    (j ∈ jobs ∧ s.stage j = .queued ∧ s.running jobs < places) ∧
      s' = s.started j := by
  simp only [step] at h
  split at h
  · next hguard => exact ⟨hguard, (Option.some.inj h).symm⟩
  · cases h

theorem step_finish (h : s.step jobs places (.finish j) = some s') :
    (j ∈ jobs ∧ s.stage j = .active) ∧
      s' = s.finished j := by
  simp only [step] at h
  split at h
  · next hguard => exact ⟨hguard, (Option.some.inj h).symm⟩
  · cases h

theorem step_pass (h : s.step jobs places (.pass d) = some s') :
    ((s.Waiting jobs → places ≤ s.running jobs) ∧ ¬s.Over jobs) ∧
      s' = { s with now := s.now + d } := by
  simp only [step] at h
  split at h
  · next hguard => exact ⟨hguard, (Option.some.inj h).symm⟩
  · cases h

/-- A job that starts has held its place for no time yet. -/
theorem held_started (hq : s.stage j = .queued) (i : J) : (s.started j).held i = s.held i := by
  by_cases hij : i = j
  · subst hij
    simp [held, hq]
  · simp [held, hij]

theorem held_finished (ha : s.stage j = .active) (i : J) : (s.finished j).held i = s.held i := by
  by_cases hij : i = j
  · subst hij
    simp [held, ha]
  · simp [held, hij]

theorem work_started (hq : s.stage j = .queued) : (s.started j).work jobs = s.work jobs :=
  Finset.sum_congr rfl fun i _ => held_started hq i

theorem work_finished (ha : s.stage j = .active) : (s.finished j).work jobs = s.work jobs :=
  Finset.sum_congr rfl fun i _ => held_finished ha i

omit [DecidableEq J] in
/-- Time is work in every place that is taken. -/
theorem held_pass (hpast : s.stage j ≠ .queued → s.began j ≤ s.now) :
    ({ s with now := s.now + d } : Window J).held j =
      s.held j + d * if s.stage j = .active then 1 else 0 := by
  cases hstage : s.stage j with
  | queued => simp [held, hstage]
  | active =>
    have := hpast (by simp [hstage])
    simp only [held, hstage, if_true]
    omega
  | done => simp [held, hstage]

omit [DecidableEq J] in
theorem work_pass (hpast : ∀ j ∈ jobs, s.stage j ≠ .queued → s.began j ≤ s.now) :
    ({ s with now := s.now + d } : Window J).work jobs = s.work jobs + d * s.running jobs := by
  unfold work
  rw [Finset.sum_congr rfl fun j hj => held_pass (d := d) (hpast j hj), Finset.sum_add_distrib,
    ← Finset.mul_sum, running, Finset.card_filter]

theorem running_started (hj : j ∈ jobs) (hq : s.stage j = .queued) :
    (s.started j).running jobs = s.running jobs + 1 := by
  have hnot : j ∉ jobs.filter fun i => s.stage i = .active := by simp [hq]
  rw [running, running, ← Finset.card_insert_of_notMem hnot]
  congr 1
  ext i
  by_cases hij : i = j
  · subst hij
    simp [hj]
  · simp [hij]

theorem running_finished (hj : j ∈ jobs) (ha : s.stage j = .active) :
    (s.finished j).running jobs + 1 = s.running jobs := by
  have hmem : j ∈ jobs.filter fun i => s.stage i = .active := by simp [hj, ha]
  rw [running, running, ← Finset.card_erase_add_one hmem]
  congr 2
  ext i
  by_cases hij : i = j
  · subst hij
    simp
  · simp [hij]

/-- A job that is done stays so, with the times it has. -/
theorem started_done {i : J} (hq : s.stage j = .queued) (hd : s.stage i = .done) :
    (s.started j).stage i = .done := by
  have hij : i ≠ j := by
    rintro rfl
    simp [hq] at hd
  simpa [hij] using hd

theorem finished_done {i : J} (ha : s.stage j = .active) (hd : s.stage i = .done) :
    (s.finished j).stage i = .done ∧ (s.finished j).ended i = s.ended i := by
  have hij : i ≠ j := by
    rintro rfl
    simp [ha] at hd
  simpa [hij] using hd

theorem finished_was {i : J} (ha : s.stage j = .active)
    (hne : (s.finished j).stage i ≠ .queued) : s.stage i ≠ .queued := by
  by_cases hij : i = j
  · subst hij
    simp [ha]
  · simpa [hij] using hne

theorem finished_waiting (hw : (s.finished j).Waiting jobs) : s.Waiting jobs := by
  obtain ⟨i, hi, hq⟩ := hw
  have hij : i ≠ j := by
    rintro rfl
    simp at hq
  exact ⟨i, hi, by simpa [hij] using hq⟩

theorem Rolls.start (hs : s.Rolls jobs places) (h : s.step jobs places (.start j) = some s') :
    s'.Rolls jobs places := by
  obtain ⟨⟨hj, hq, hroom⟩, rfl⟩ := step_start h
  have hwaiting : s.Waiting jobs := ⟨j, hj, hq⟩
  constructor
  · rw [running_started hj hq]
    omega
  · intro i hi hne
    by_cases hij : i = j
    · subst hij
      simp
    · simpa [hij] using hs.past i hi (by simpa [hij] using hne)
  · intro i hi hd
    have hij : i ≠ j := by
      rintro rfl
      simp at hd
    simpa [hij] using hs.order i hi (by simpa [hij] using hd)
  · rw [work_started hq]
    exact hs.capacity
  · intro _
    rw [work_started hq]
    exact hs.full hwaiting
  · intro i hi hne
    rw [work_started hq, held_started hq]
    by_cases hij : i = j
    · subst hij
      simpa [held, hq] using hs.full hwaiting
    · simpa [hij] using hs.prompt i hi (by simpa [hij] using hne)
  · intro hover
    have := hover j hj
    simp at this
  · intro _ _
    obtain h₀ | ⟨i, hi, hd, hend⟩ := hs.opened hwaiting hroom
    · exact .inl h₀
    · exact .inr ⟨i, hi, started_done hq hd, hend⟩
  · intro i hi hne
    -- the job that starts does so in the place that is free now
    by_cases hij : i = j
    · subst hij
      obtain h₀ | ⟨k, hk, hd, hend⟩ := hs.opened hwaiting hroom
      · exact .inl (by simpa using h₀)
      · exact .inr ⟨k, hk, started_done hq hd, by simpa using hend⟩
    · obtain h₀ | ⟨k, hk, hd, hend⟩ := hs.follows i hi (by simpa [hij] using hne)
      · exact .inl (by simpa [hij] using h₀)
      · exact .inr ⟨k, hk, started_done hq hd, by simpa [hij] using hend⟩

theorem Rolls.finish (hs : s.Rolls jobs places) (h : s.step jobs places (.finish j) = some s') :
    s'.Rolls jobs places := by
  obtain ⟨⟨hj, ha⟩, rfl⟩ := step_finish h
  constructor
  · have := running_finished hj ha
    have := hs.room
    omega
  · intro i hi hne
    exact hs.past i hi (finished_was ha hne)
  · intro i hi hd
    by_cases hij : i = j
    · subst hij
      simpa using hs.past i hi (by simp [ha])
    · simpa [hij] using hs.order i hi (by simpa [hij] using hd)
  · rw [work_finished ha]
    exact hs.capacity
  · intro hw
    rw [work_finished ha]
    exact hs.full (finished_waiting hw)
  · intro i hi hne
    rw [work_finished ha, held_finished ha]
    exact hs.prompt i hi (finished_was ha hne)
  · intro _
    exact .inr ⟨j, hj, finished_ended_self⟩
  · intro _ _
    exact .inr ⟨j, hj, finished_stage_self, finished_ended_self⟩
  · intro i hi hne
    obtain h₀ | ⟨k, hk, hd, hend⟩ := hs.follows i hi (finished_was ha hne)
    · exact .inl h₀
    · obtain ⟨hd', hend'⟩ := finished_done ha hd
      exact .inr ⟨k, hk, hd', hend'.trans hend⟩

omit [DecidableEq J] in
theorem Rolls.pass (hs : s.Rolls jobs places) (hbusy : s.Waiting jobs → places ≤ s.running jobs)
    (hgoing : ¬s.Over jobs) : ({ s with now := s.now + d } : Window J).Rolls jobs places := by
  have hwork := work_pass (d := d) hs.past
  have hroom := hs.room
  constructor
  · exact hroom
  · intro i hi hne
    exact (hs.past i hi hne).trans (Nat.le_add_right ..)
  · exact hs.order
  · rw [hwork, Nat.mul_add, Nat.mul_comm d]
    exact Nat.add_le_add hs.capacity (Nat.mul_le_mul_right d hroom)
  · intro hw
    have hfull : places ≤ s.running jobs := hbusy hw
    rw [hwork, Nat.mul_add, Nat.mul_comm d]
    exact Nat.add_le_add (hs.full hw) (Nat.mul_le_mul_right d hfull)
  · intro i hi hne
    rw [hwork, held_pass (hs.past i hi)]
    have hone : (if s.stage i = .active then 1 else 0) ≤ s.running jobs := by
      split
      · next ha => exact Finset.card_pos.mpr ⟨i, by simp [hi, ha]⟩
      · exact Nat.zero_le _
    have hmore := Nat.mul_le_mul_left d hone
    have hprompt := hs.prompt i hi hne
    dsimp only
    omega
  · intro hover
    exact absurd hover hgoing
  · intro hw hlt
    exact absurd (hbusy hw) (Nat.not_le.mpr hlt)
  · exact hs.follows

theorem Rolls.step {e : Event J} (hs : s.Rolls jobs places) (h : s.step jobs places e = some s') :
    s'.Rolls jobs places := by
  cases e with
  | start j => exact hs.start h
  | finish j => exact hs.finish h
  | pass d =>
    obtain ⟨⟨hbusy, hgoing⟩, rfl⟩ := step_pass h
    exact hs.pass hbusy hgoing

/-- Every time of a run is a multiple of what divides the time of every job that is done. -/
structure Even (jobs : Finset J) (D : ℕ) (s : Window J) : Prop where
  began : ∀ j ∈ jobs, s.stage j ≠ .queued → D ∣ s.began j
  ended : ∀ j ∈ jobs, s.stage j = .done → D ∣ s.ended j

/-- The jobs that are done took multiples of `D`. -/
def Took (jobs : Finset J) (D : ℕ) (s : Window J) : Prop :=
  ∀ j ∈ jobs, s.stage j = .done → D ∣ s.ended j - s.began j

variable {D : ℕ}

theorem even_step {e : Event J} (hs : s.Rolls jobs places)
    (heven : s.Took jobs D → s.Even jobs D) (h : s.step jobs places e = some s')
    (htook : s'.Took jobs D) : s'.Even jobs D := by
  cases e with
  | start j =>
    obtain ⟨⟨hj, hq, hroom⟩, rfl⟩ := step_start h
    have hne : ∀ i, s.stage i = .done → i ≠ j := by
      rintro i hd rfl
      simp [hq] at hd
    have hbefore : s.Even jobs D := heven fun i hi hd => by
      simpa [hne i hd] using htook i hi (started_done hq hd)
    constructor
    · intro i hi hi'
      by_cases hij : i = j
      · subst hij
        obtain h₀ | ⟨k, hk, hd, hend⟩ := hs.opened ⟨i, hj, hq⟩ hroom
        · simp [h₀]
        · simpa [hend] using hbefore.ended k hk hd
      · simpa [hij] using hbefore.began i hi (by simpa [hij] using hi')
    · intro i hi hd
      have hij : i ≠ j := by
        rintro rfl
        simp at hd
      exact hbefore.ended i hi (by simpa [hij] using hd)
  | finish j =>
    obtain ⟨⟨hj, ha⟩, rfl⟩ := step_finish h
    have hbefore : s.Even jobs D := heven fun i hi hd => by
      obtain ⟨hd', hend⟩ := finished_done ha hd
      simpa [hend] using htook i hi hd'
    constructor
    · intro i hi hi'
      exact hbefore.began i hi (finished_was ha hi')
    · intro i hi hd
      by_cases hij : i = j
      · subst hij
        have hbegan := hbefore.began i hi (by simp [ha])
        have hheld := htook i hi hd
        rw [finished_ended_self, finished_began] at hheld
        rw [finished_ended_self]
        exact (Nat.dvd_sub_iff_left (hs.past i hi (by simp [ha])) hbegan).mp hheld
      · simpa [hij] using hbefore.ended i hi (by simpa [hij] using hd)
  | pass d =>
    obtain ⟨-, rfl⟩ := step_pass h
    exact ⟨(heven htook).began, (heven htook).ended⟩

/-- What a run has come to. -/
structure Reached (jobs : Finset J) (places : ℕ) (s : Window J) : Prop where
  rolls : s.Rolls jobs places
  even : ∀ D, s.Took jobs D → s.Even jobs D

omit [DecidableEq J] in
theorem reached_opening (hqueued : ∀ j ∈ jobs, s.stage j = .queued) (hnow : s.now = 0) :
    s.Reached jobs places where
  rolls := rolls_opening hqueued hnow
  even D _ := ⟨fun j hj hq => absurd (hqueued j hj) hq,
    fun j hj hd => by simp [hqueued j hj] at hd⟩

theorem Reached.step {e : Event J} (hs : s.Reached jobs places)
    (h : s.step jobs places e = some s') : s'.Reached jobs places :=
  ⟨hs.rolls.step h, fun _ htook => even_step hs.rolls (hs.even _) h htook⟩

/-- The time a job took. -/
def took (s : Window J) (j : J) : ℕ := s.ended j - s.began j

omit [DecidableEq J] in
theorem work_over (hover : s.Over jobs) : s.work jobs = ∑ j ∈ jobs, s.took j := by
  refine Finset.sum_congr rfl fun j hj => ?_
  simp [held, took, hover j hj]

omit [DecidableEq J] in
/-- The places have room for all the work of the jobs. -/
theorem Reached.sum_le (h : s.Reached jobs places) (hover : s.Over jobs) :
    ∑ j ∈ jobs, s.took j ≤ places * s.now := by
  rw [← work_over hover]
  exact h.rolls.capacity

omit [DecidableEq J] in
/-- Until the job that ends last starts, every place does work of other jobs. -/
theorem Reached.le_sum (h : s.Reached jobs places) (hover : s.Over jobs) {L : ℕ}
    (hlong : ∀ j ∈ jobs, s.took j ≤ L) (hplaces : 0 < places) :
    places * s.now ≤ ∑ j ∈ jobs, s.took j + (places - 1) * L := by
  obtain h₀ | ⟨j, hj, hend⟩ := h.rolls.last hover
  · simp [h₀]
  · have hdone := hover j hj
    have hprompt := h.rolls.prompt j hj (by simp [hdone])
    have horder := h.rolls.order j hj hdone
    have hheld : s.held j = s.took j := by simp [held, took, hdone]
    have hnow : s.now = s.began j + s.took j := by
      unfold took
      omega
    obtain ⟨n, rfl⟩ := Nat.exists_eq_add_of_lt hplaces
    rw [Nat.zero_add] at *
    rw [work_over hover, hheld] at hprompt
    have hless := Nat.mul_le_mul_left n (hlong j hj)
    calc (n + 1) * s.now = (n + 1) * s.began j + s.took j + n * s.took j := by
          rw [hnow]
          ring
      _ ≤ ∑ j ∈ jobs, s.took j + n * L := by omega

omit [DecidableEq J] in
theorem Reached.dvd_now (h : s.Reached jobs places) (hover : s.Over jobs)
    (htook : ∀ j ∈ jobs, D ∣ s.took j) : D ∣ s.now := by
  obtain h₀ | ⟨j, hj, hend⟩ := h.rolls.last hover
  · simp [h₀]
  · rw [← hend]
    exact (h.even D fun i hi _ => htook i hi).ended j hj (hover j hj)

omit [DecidableEq J] in
/-- Jobs of one length go through in rounds, each as many as there are places; jobs that
take no time cost nothing. -/
theorem Reached.rounds (h : s.Reached jobs places) (hover : s.Over jobs) (hplaces : 0 < places)
    (htook : ∀ j ∈ jobs, s.took j = 0 ∨ s.took j = D) :
    s.now = (jobs.filter fun j => s.took j ≠ 0).card ⌈/⌉ places * D := by
  have hdvd : D ∣ s.now := h.dvd_now hover fun j hj => by
    obtain h₀ | hD := htook j hj
    · simp [h₀]
    · simp [hD]
  have hlong : ∀ j ∈ jobs, s.took j ≤ D := fun j hj => by
    obtain h₀ | hD := htook j hj <;> omega
  have hsum : ∑ j ∈ jobs, s.took j = (jobs.filter fun j => s.took j ≠ 0).card * D := by
    rw [← Finset.sum_filter_ne_zero, Finset.sum_congr rfl fun j hj => ?_, Finset.sum_const,
      smul_eq_mul]
    obtain ⟨hj, hne⟩ := Finset.mem_filter.mp hj
    exact (htook j hj).resolve_left hne
  have hlow := h.sum_le hover
  have hhigh := h.le_sum hover hlong hplaces
  obtain ⟨r, hr⟩ := hdvd
  rw [hsum, hr] at hlow hhigh
  rw [hr, Nat.mul_comm D r]
  obtain rfl | hD := Nat.eq_zero_or_pos D
  · simp
  · have hlow' : (jobs.filter fun j => s.took j ≠ 0).card ≤ places * r :=
      Nat.le_of_mul_le_mul_right (by linarith) hD
    have hhigh' : places * r ≤ (jobs.filter fun j => s.took j ≠ 0).card + (places - 1) :=
      Nat.le_of_mul_le_mul_right (by linarith) hD
    congr 1
    refine le_antisymm ?_ (ceilDiv_le_iff_le_mul hplaces |>.mpr hlow')
    have hceil := le_smul_ceilDiv (b := (jobs.filter fun j => s.took j ≠ 0).card) hplaces
    rw [smul_eq_mul] at hceil
    refine Nat.le_of_lt_succ (Nat.lt_of_mul_lt_mul_left (a := places) ?_)
    rw [Nat.mul_succ]
    omega

end Window
end OracleServer
