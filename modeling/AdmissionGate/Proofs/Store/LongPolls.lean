-- When a long poll ends. Changes are made during the call, each at its time.
-- The poll ends with the first write that brings the index past its cursor, or
-- when its wait is over, and it answers with the store of that moment.
import AdmissionGate.Proofs.Store.WriteLog
import AdmissionGate.Store.LongPoll

namespace AdmissionGate

/-! ## Changes and their times -/

namespace Schedule

/-- Changes that are due one after another, and none of them just when a wait is over. -/
structure IsTimed (schedule : Schedule) (wait : Nat) : Prop where
  rising : schedule.Pairwise fun a b => a.1 < b.1
  apart : ∀ d ∈ schedule, d.1 ≠ wait

/-- The changes that are due by a time. -/
def dueBy (schedule : Schedule) (time : Nat) : List Change :=
  (schedule.filter (·.1 ≤ time)).map (·.2)

/-- What is still to come after a time. -/
def dueAfter (schedule : Schedule) (time : Nat) : Schedule := schedule.filter (time < ·.1)

theorem dueBy_append {front back : Schedule} {time : Nat} (hfront : ∀ d ∈ front, d.1 ≤ time)
    (hback : ∀ d ∈ back, time < d.1) : dueBy (front ++ back) time = front.map (·.2) := by
  have hfilter : front.filter (·.1 ≤ time) = front :=
    List.filter_eq_self.mpr fun d hd => decide_eq_true (hfront d hd)
  have hnone : back.filter (·.1 ≤ time) = [] := by
    rw [List.filter_eq_nil_iff]
    intro d hd
    simpa using hback d hd
  rw [dueBy, List.filter_append, hfilter, hnone, List.append_nil]

theorem dueAfter_append {front back : Schedule} {time : Nat} (hfront : ∀ d ∈ front, d.1 ≤ time)
    (hback : ∀ d ∈ back, time < d.1) : dueAfter (front ++ back) time = back := by
  have hnone : front.filter (time < ·.1) = [] := by
    rw [List.filter_eq_nil_iff]
    intro d hd
    simpa using hfront d hd
  have hfilter : back.filter (time < ·.1) = back :=
    List.filter_eq_self.mpr fun d hd => decide_eq_true (hback d hd)
  rw [dueAfter, List.filter_append, hnone, hfilter, List.nil_append]

end Schedule

namespace Store

/-! ## Writes that move the index -/

/-- Whether a change takes effect on the entries: a put does, and the removal of a key that is
there. -/
def writes (s : Store) : Change → Bool
  | .put _ _ => true
  | .delete key => s.holds key
  | .outage _ => false

/-- The index counts the writes. -/
theorem index_apply (s : Store) (c : Change) :
    (s.apply c).index = s.index + if s.writes c then 1 else 0 := by
  cases c with
  | put key value => rfl
  | delete key =>
    by_cases hheld : s.holds key = true
    · simp [apply, delete, writes, hheld]
    · simp [apply, delete, writes, hheld]
  | outage on => rfl

/-- The index on the channel is the index of the store. -/
def IsPublished (s : Store) : Prop := s.channel.value = s.index

theorem IsPublished.apply {s : Store} (h : IsPublished s) (c : Change) :
    IsPublished (s.apply c) := by
  cases c with
  | put key value => rfl
  | delete key =>
    simp only [Store.apply, delete]
    split
    · rfl
    · exact h
  | outage on => exact h

theorem isPublished_after (changes : List Change) : IsPublished (empty.after changes) := by
  have hlogged := isLoggedBy_after changes
  rw [IsPublished, hlogged.channel, hlogged.index]

/-- The write at `time` is the one of a schedule that brings the index above `cursor`. -/
def IsFirstPast (s : Store) (cursor : Nat) (schedule : Schedule) (time : Nat) : Prop :=
  ∃ before c later, schedule = before ++ (time, c) :: later ∧
    let now := s.after (before.map (·.2))
    now.writes c = true ∧ now.index ≤ cursor ∧ cursor < (now.apply c).index

variable {s : Store} {cursor : Nat}

/-- What has been made without reaching past the cursor can be left out. -/
theorem IsFirstPast.of_append {front back : Schedule} {time : Nat}
    (h : IsFirstPast s cursor (front ++ back) time)
    (hfront : (s.after (front.map (·.2))).index ≤ cursor) :
    IsFirstPast (s.after (front.map (·.2))) cursor back time := by
  obtain ⟨before, c, later, heq, hwrites, hle, hlt⟩ := h
  rcases List.append_eq_append_iff.mp heq with ⟨more, rfl, rfl⟩ | ⟨more, rfl, hrest⟩
  · rw [List.map_append, after_append] at hwrites hle hlt
    exact ⟨more, c, later, rfl, hwrites, hle, hlt⟩
  · cases more with
    | nil =>
      rw [List.append_nil]
      exact ⟨[], c, later, hrest.symm, hwrites, hle, hlt⟩
    | cons d more =>
      -- The write is among what has been made, and the index never goes back.
      obtain ⟨rfl, -⟩ := List.cons.inj hrest
      rw [List.map_append, after_append] at hfront
      have hkept := index_le_after ((s.after (before.map (·.2))).apply c) (more.map (·.2))
      exact absurd (Nat.lt_of_lt_of_le hlt hkept) (Nat.not_lt.mpr hfront)

theorem not_isFirstPast_of_lt (h : cursor < s.index) (schedule : Schedule) (time : Nat) :
    ¬ IsFirstPast s cursor schedule time := by
  rintro ⟨before, c, later, -, -, hle, -⟩
  have hkept := index_le_after s (before.map (·.2))
  omega

/-- A change that moves the index past the cursor is the write that does so. -/
theorem IsFirstPast.eq_of_cons {t time : Nat} {c : Change} {later : Schedule}
    (h : IsFirstPast s cursor ((t, c) :: later) time) (hlt : cursor < (s.apply c).index) :
    time = t := by
  obtain ⟨before, d, rest, heq, hfirst⟩ := h
  cases before with
  | nil =>
    cases heq
    rfl
  | cons e before =>
    obtain ⟨rfl, hlater⟩ := List.cons.inj heq
    exact absurd ⟨before, d, rest, rfl, hfirst⟩ (not_isFirstPast_of_lt hlt _ time)

/-! ## How a wait ends -/

/-- How a wait ends, with the time, the store then, and what is still to come: a change moves the
index past the cursor before the wait is over, or none does. -/
inductive Awaited (s : Store) (cursor wait : Nat) (schedule : Schedule) :
    Nat × Store × Schedule → Prop
  | woken (before : Schedule) {later : Schedule} {t : Nat} {c : Change} :
      schedule = before ++ (t, c) :: later → t < wait →
      (s.after (before.map (·.2))).index ≤ cursor →
      cursor < ((s.after (before.map (·.2))).apply c).index →
      Awaited s cursor wait schedule (t, (s.after (before.map (·.2))).apply c, later)
  | timedOut (before : Schedule) {later : Schedule} :
      schedule = before ++ later → (∀ d ∈ before, d.1 < wait) → (∀ d ∈ later.head?, wait ≤ d.1) →
      (s.after (before.map (·.2))).index ≤ cursor →
      Awaited s cursor wait schedule (wait, s.after (before.map (·.2)), later)

theorem awaitPast_of_lt (h : cursor < s.channel.value) (wait now : Nat) (schedule : Schedule) :
    awaitPast cursor wait now s schedule = (now, s, schedule) := by
  cases schedule with
  | nil => rw [awaitPast, if_pos h]
  | cons d rest => rw [awaitPast, if_pos h]

theorem Awaited.cons {t wait : Nat} {c : Change} {rest : Schedule} {e : Nat × Store × Schedule}
    (h : Awaited (s.apply c) cursor wait rest e) (ht : t < wait) :
    Awaited s cursor wait ((t, c) :: rest) e := by
  cases h with
  | @woken before later t' c' hrest ht' hle hlt =>
    exact .woken ((t, c) :: before) (by rw [hrest]; rfl) ht' hle hlt
  | @timedOut before later hrest hbefore hlater hle =>
    refine .timedOut ((t, c) :: before) (by rw [hrest]; rfl) ?_ hlater hle
    intro d hd
    rcases List.mem_cons.mp hd with rfl | hd
    · exact ht
    · exact hbefore d hd

theorem awaited_awaitPast (hs : IsPublished s) (hle : s.index ≤ cursor) (wait now : Nat)
    (schedule : Schedule) :
    Awaited s cursor wait schedule (awaitPast cursor wait now s schedule) := by
  induction schedule generalizing s now with
  | nil =>
    rw [awaitPast, hs, if_neg (Nat.not_lt.mpr hle)]
    exact .timedOut [] rfl (by simp) (by simp) hle
  | cons d rest ih =>
    obtain ⟨t, c⟩ := d
    rw [awaitPast, hs, if_neg (Nat.not_lt.mpr hle)]
    split
    next ht =>
      rcases Nat.lt_or_ge cursor (s.apply c).index with hlt | hge
      · rw [awaitPast_of_lt (by rw [hs.apply c]; exact hlt)]
        exact .woken [] rfl ht hle hlt
      · exact (ih (hs.apply c) hge t).cons ht
    next ht =>
      refine .timedOut [] rfl (by simp) ?_ hle
      intro d hd
      cases hd
      exact Nat.not_lt.mp ht

/-- With changes at times of their own, a wait is as long as up to the first write past the
cursor, and leaves the store with the changes that were due by its end. -/
structure EndsOnTime (s : Store) (cursor wait : Nat) (schedule : Schedule)
    (e : Nat × Store × Schedule) : Prop where
  woken : ∀ time, IsFirstPast s cursor schedule time → e.1 = min time wait
  timedOut : (∀ time, ¬ IsFirstPast s cursor schedule time) → e.1 = wait
  store : e.2.1 = s.after (schedule.dueBy e.1)
  rest : e.2.2 = schedule.dueAfter e.1

theorem Awaited.endsOnTime {wait : Nat} {schedule : Schedule} {e : Nat × Store × Schedule}
    (h : Awaited s cursor wait schedule e) (htimed : schedule.IsTimed wait) :
    EndsOnTime s cursor wait schedule e := by
  obtain ⟨hrising, hapart⟩ := htimed
  cases h with
  | @woken before later t c hschedule ht hle hlt =>
    subst hschedule
    obtain ⟨-, hafter, hcross⟩ := List.pairwise_append.mp hrising
    have hsplit : before ++ (t, c) :: later = (before ++ [(t, c)]) ++ later := by simp
    have hfront : ∀ d ∈ before ++ [(t, c)], d.1 ≤ t := by
      intro d hd
      rcases List.mem_append.mp hd with hd | hd
      · exact Nat.le_of_lt (hcross d hd (t, c) List.mem_cons_self)
      · obtain rfl := List.mem_singleton.mp hd
        exact Nat.le_refl _
    have hback : ∀ d ∈ later, t < d.1 := (List.pairwise_cons.mp hafter).1
    refine ⟨fun time hfirst => ?_, fun hnone => ?_, ?_, ?_⟩
    · rw [(hfirst.of_append hle).eq_of_cons hlt, Nat.min_eq_left (Nat.le_of_lt ht)]
    · have hwrites : (s.after (before.map (·.2))).writes c = true := by
        rw [index_apply] at hlt
        split at hlt
        · assumption
        · omega
      exact absurd ⟨before, c, later, rfl, hwrites, hle, hlt⟩ (hnone t)
    · rw [hsplit, Schedule.dueBy_append hfront hback, List.map_append, after_append]
      rfl
    · rw [hsplit, Schedule.dueAfter_append hfront hback]
  | @timedOut before later hschedule hbefore hlater hle =>
    subst hschedule
    obtain ⟨-, hafter, -⟩ := List.pairwise_append.mp hrising
    have hback : ∀ d ∈ later, wait < d.1 := by
      intro d hd
      have hne := hapart d (List.mem_append_right before hd)
      cases later with
      | nil => cases hd
      | cons first rest =>
        have hfirst : wait ≤ first.1 := hlater first rfl
        rcases List.mem_cons.mp hd with rfl | hd
        · omega
        · have hlt := (List.pairwise_cons.mp hafter).1 d hd
          omega
    have hfront : ∀ d ∈ before, d.1 ≤ wait := fun d hd => Nat.le_of_lt (hbefore d hd)
    refine ⟨fun time hfirst => ?_, fun _ => rfl, ?_, ?_⟩
    · obtain ⟨front, c, back, rfl, -⟩ := hfirst.of_append hle
      have hlt : wait < time := hback (time, c) (by simp)
      exact (Nat.min_eq_right (Nat.le_of_lt hlt)).symm
    · rw [Schedule.dueBy_append hfront hback]
    · rw [Schedule.dueAfter_append hfront hback]

/-! ## The long poll -/

theorem applyAll_awaitPast (s : Store) (cursor wait now : Nat) (schedule : Schedule) :
    let e := awaitPast cursor wait now s schedule
    e.2.1.applyAll e.2.2 = s.applyAll schedule := by
  induction schedule generalizing s now with
  | nil =>
    simp only [awaitPast]
    split <;> rfl
  | cons d rest ih =>
    obtain ⟨t, c⟩ := d
    simp only [awaitPast]
    split
    · rfl
    · split
      · exact ih (s.apply c) t
      · rfl

/-- A long poll makes the changes of a schedule in order, each once, and leaves the others: those
bring the store where it would be without the poll. -/
theorem applyAll_listWait (s : Store) (stem : String) (cursor wait : Nat) (schedule : Schedule) :
    let e := s.listWait stem cursor wait schedule
    e.store.applyAll e.rest = s.applyAll schedule := by
  unfold listWait
  split
  · exact applyAll_awaitPast s cursor wait 0 schedule
  · rfl

/-- A store lists all of its entries under a stem, unless reads are not answered. -/
theorem list_eq (hs : Sound s) (stem : String) :
    s.list stem = if s.isAvailable then
      .ok ⟨s.entries.filter fun d => Text.startsWith d.key stem, s.index⟩
      else .error (.unavailable .marked) := by
  rw [list, answer, snapshot, under_eq_filter hs.ordered]

/-- Over every store that some changes lead to, and every timed schedule of further changes, a long
poll returns at once if reads are not answered or the index is past the cursor already. Otherwise
it returns with the first write that brings the index past the cursor, whatever its key and whether
or not reads are answered then, but not later than its wait; removals of keys that are not there
and outages do not end it. By then the changes that are due have been made and no others. It fails
if reads are not answered at the call or when it returns, and else gives all entries under the stem
and the index at its return. -/
theorem long_poll_ends_exactly (changes : List Change) (stem : String) (cursor wait : Nat)
    {schedule : Schedule} (htimed : schedule.IsTimed wait) :
    let s := empty.after changes
    let e := s.listWait stem cursor wait schedule
    let isImmediate := s.isAvailable = false ∨ cursor < s.index
    (isImmediate → e.elapsed = 0 ∧ e.store = s ∧ e.rest = schedule) ∧
      (¬ isImmediate →
        (∀ time, IsFirstPast s cursor schedule time → e.elapsed = min time wait) ∧
        ((∀ time, ¬ IsFirstPast s cursor schedule time) → e.elapsed = wait) ∧
        e.store = s.after (schedule.dueBy e.elapsed) ∧
        e.rest = schedule.dueAfter e.elapsed) ∧
      e.answer = if s.isAvailable && e.store.isAvailable then
        .ok ⟨e.store.entries.filter fun d => Text.startsWith d.key stem, e.store.index⟩
        else .error (.unavailable .marked) := by
  intro s e isImmediate
  have hs : IsPublished s := isPublished_after changes
  have hsound : Sound s := sound_empty.after changes
  cases hup : s.isAvailable with
  | false =>
    have he : e = ⟨0, s.list stem, s, schedule⟩ := by simp [e, listWait, hup]
    refine ⟨fun _ => by rw [he]; exact ⟨rfl, rfl, rfl⟩, fun h => absurd (Or.inl hup) h, ?_⟩
    rw [he, list_eq hsound, hup]
    rfl
  | true =>
    let w := awaitPast cursor wait 0 s schedule
    have he : e = ⟨w.1, w.2.1.list stem, w.2.1, w.2.2⟩ := by simp [e, w, listWait, hup]
    rcases Nat.lt_or_ge cursor s.index with hlt | hge
    · have hw : w = (0, s, schedule) := awaitPast_of_lt (by rw [hs]; exact hlt) wait 0 schedule
      refine ⟨fun _ => by rw [he, hw]; exact ⟨rfl, rfl, rfl⟩, fun h => absurd (Or.inr hlt) h, ?_⟩
      rw [he, hw, list_eq hsound, Bool.true_and]
    · have hends : EndsOnTime s cursor wait schedule w :=
        (awaited_awaitPast hs hge wait 0 schedule).endsOnTime htimed
      refine ⟨fun h => ?_, fun _ => ?_, ?_⟩
      · rcases h with hdown | hlt
        · rw [hup] at hdown
          cases hdown
        · omega
      · rw [he]
        exact ⟨hends.woken, hends.timedOut, hends.store, hends.rest⟩
      · have hsoundAt : Sound w.2.1 := by
          rw [hends.store]
          exact hsound.after _
        rw [he, list_eq hsoundAt, Bool.true_and]

/-- A poll that needs two writes returns with the second one, the removal of a listed key, and
fails there because an outage has begun. -/
theorem woken_during_outage :
    let s := empty.after [.put "a" [1]]
    let schedule : Schedule := [(10, .outage true), (20, .delete "x"), (30, .put "b" [2]),
      (40, .delete "a"), (50, .outage false)]
    let e := s.listWait "a" 2 100 schedule
    schedule.IsTimed 100 ∧ IsFirstPast s 2 schedule 40 ∧ e.elapsed = 40 ∧
      e.rest = [(50, .outage false)] ∧ e.answer = .error (.unavailable .marked) := by
  intro s schedule e
  have htimed : schedule.IsTimed 100 := ⟨by decide, by decide⟩
  have hfirst : IsFirstPast s 2 schedule 40 :=
    ⟨[(10, .outage true), (20, .delete "x"), (30, .put "b" [2])], .delete "a",
      [(50, .outage false)], rfl, by decide, by decide, by decide⟩
  obtain ⟨-, hwaits, hanswer⟩ := long_poll_ends_exactly [.put "a" [1]] "a" 2 100 htimed
  obtain ⟨hwoken, -, hstore, hrest⟩ := hwaits (by decide)
  have helapsed : e.elapsed = 40 := hwoken 40 hfirst
  refine ⟨htimed, hfirst, helapsed, ?_, ?_⟩
  · show e.rest = _
    rw [hrest, helapsed]
    rfl
  · have hdown : e.store.isAvailable = false := by
      rw [hstore, helapsed]
      decide
    rw [hanswer, hdown, Bool.and_false]
    rfl

end Store

end AdmissionGate
