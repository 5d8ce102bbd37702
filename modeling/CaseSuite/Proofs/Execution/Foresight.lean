import CaseSuite.Proofs.Execution.Progress
import CaseSuite.Proofs.Execution.Sequential

/-!
# Foresight

Beside the terminals of a running case stands a desk of lines.  `Foreseen` says that each line is
what its terminal foretells, where at most one terminal still has something to ask of the database.
A step of any worker keeps the desk as it is; a call that goes on changes it as the sequential
runtime does at once.
-/

namespace CaseSuite

open Terminal (Advances Answer Call Deed Ledger Orderly Phase Progress Stage Task Works)

variable {σ : Type}

namespace Terminal

namespace Serving

variable {t t' : Terminal} {deeds : List Deed}

theorem works
    {db : Database σ} {w w' : σ} (h : t.Serving) (hworks : Works db w t deeds w' t') :
    t'.Serving := by
  obtain ⟨hhandles, hqueue, hstarting, hclosing, hlost⟩ := h
  cases hworks with
  | take hphase queue =>
      rename_i task rest
      have hnot : task ≠ .shutdown := by
        rintro rfl
        simp [queue] at hqueue
      refine ⟨hhandles, ?_, ?_, ?_, ?_⟩
      · simp_all
      · simpa using hnot
      · simp
      · cases task <;> simp_all [Phase.isExit]
  | desert _ _ handles => exact absurd handles hhandles
  | shut hphase => exact absurd hphase hstarting
  | close hphase => exact absurd hphase hclosing
  | execute =>
      rename_i reply _ _
      cases reply <;> constructor <;> simp_all [Phase.afterExecute, Phase.isExit]
  | fetch =>
      rename_i reply _ _
      cases reply <;> constructor <;> simp_all [Phase.afterFetch, Phase.isExit]
  | _ =>
      constructor <;>
        simp_all [Phase.isExit, store, finish, Verdict.crashed, Verdict.failure]

theorem advances
    {stage : Stage} {p : Progress} (h : t.Serving) (hadvances : Advances t stage deeds t' p)
    (hstage : stage.Ordinary) : t'.Serving := by
  obtain ⟨hhandles, hqueue, hstarting, hclosing, hlost⟩ := h
  cases hadvances with
  | send task =>
      refine ⟨hhandles, ?_, hstarting, hclosing, hlost⟩
      intro hin
      rcases List.mem_append.mp hin with hin | hin
      · exact hqueue hin
      · obtain rfl : Task.shutdown = task := List.mem_singleton.mp hin
        exact hstage.1 rfl
  | reject task =>
      cases task with
      | shutdown => exact ⟨hhandles, hqueue, hstarting, hclosing, hlost⟩
      | execute query => exact ⟨hhandles, hqueue, hstarting, hclosing, fun _ _ => rfl⟩
      | fetch name => exact ⟨hhandles, hqueue, hstarting, hclosing, fun _ _ => rfl⟩
  | duplicate => exact ⟨Nat.succ_ne_zero _, hqueue, hstarting, hclosing, hlost⟩
  | give => exact absurd (by simp) hstage.2
  | _ => exact ⟨hhandles, hqueue, hstarting, hclosing, hlost⟩

end Serving

theorem Unfetching.works
    {db : Database σ} {w w' : σ} {t t' : Terminal} {deeds : List Deed} (h : t.Unfetching)
    (hworks : Works db w t deeds w' t') : t'.Unfetching := by
  rcases h with hsealed | ⟨hqueue, hphase⟩
  · cases hworks with
    | drop => exact Or.inl rfl
    | _ => simp_all [Phase.isSealed]
  have hnot {name : String} {phase : Phase} (heq : t.phase = phase)
      (hfetching : phase.isFetching name = true) : False := by
    have hnone := hphase name
    simp [heq, hfetching] at hnone
  right
  cases hworks with
  | take heq queue =>
      rename_i task rest
      constructor
      · intro name hin
        exact hqueue name (by simp [queue, hin])
      · intro name
        cases task with
        | fetch other =>
            refine absurd ?_ (hqueue other)
            simp [queue]
        | _ => rfl
  | startFetch heq => exact (hnot heq (decide_eq_true rfl)).elim
  | fetch heq => exact (hnot heq (decide_eq_true rfl)).elim
  | store heq => exact (hnot heq (decide_eq_true rfl)).elim
  | execute =>
      rename_i reply _ _
      exact ⟨hqueue, fun _ => by cases reply <;> rfl⟩
  | close =>
      rename_i reply _ _
      exact ⟨hqueue, fun _ => by cases reply <;> rfl⟩
  | drop => exact ⟨by simp, fun _ => rfl⟩
  | _ => exact ⟨hqueue, fun _ => rfl⟩

theorem Settled.unfetching
    {t : Terminal} (h : t.Settled) : t.Unfetching := by
  rcases h with ⟨hqueue, hphase⟩ | hsealed
  · refine Or.inr ⟨by simp [hqueue], ?_⟩
    intro name
    rcases hphase with hphase | hphase <;> rw [hphase] <;> rfl
  · exact Or.inl hsealed

end Terminal

namespace Case

/-! ## The desk beside the terminals -/

/-- Each line of the desk is what its terminal foretells, and only one terminal may be busy. -/
structure Foreseen (db : Database σ) (busy : Option Nat) (w : σ) (ts : List Terminal)
    (s : Desk σ) : Prop where
  lines : s.lines = ts.map fun t => (t.foresee db w).2
  settled : ∀ i t, ts[i]? = some t → busy ≠ some i → t.Settled
  calm : busy = none → s.world = w
  ahead : ∀ i t, busy = some i → ts[i]? = some t → s.world = (t.foresee db w).1

namespace Foreseen

variable {db : Database σ} {busy : Option Nat} {w : σ} {ts : List Terminal} {s : Desk σ}

theorem line_eq
    (h : Foreseen db busy w ts s) {i : Nat} {t : Terminal} (ht : ts[i]? = some t) :
    s.lines[i]? = some (t.foresee db w).2 := by
  rw [h.lines, List.getElem?_map, ht]
  rfl

/-- A terminal may count as busy although it is settled. -/
theorem occupy
    (h : Foreseen db none w ts s) (i : Nat) : Foreseen db (some i) w ts s where
  lines := h.lines
  settled j t ht _ := h.settled j t ht (by simp)
  calm hnone := by cases hnone
  ahead j t _ ht := by
    rw [(h.settled j t ht (by simp)).foresee_eq db w w]
    exact h.calm rfl

/-- A busy terminal that is settled is busy no longer. -/
theorem release
    {i : Nat} (h : Foreseen db (some i) w ts s) {t : Terminal} (ht : ts[i]? = some t)
    (hsettled : t.Settled) : Foreseen db none w ts s where
  lines := h.lines
  settled j u hu _ := by
    by_cases hj : some i = some j
    · cases hj
      rw [ht] at hu
      cases hu
      exact hsettled
    · exact h.settled j u hu hj
  calm _ := by rw [h.ahead i t rfl ht, hsettled.foresee_eq db w w]
  ahead _ _ hnone _ := by cases hnone

/-- A worker makes a step. -/
theorem work
    {w' : σ} {i : Nat} {t t' : Terminal} {deeds : List Deed} (h : Foreseen db busy w ts s)
    (ht : ts[i]? = some t) (hworks : Works db w t deeds w' t') (hserving : t.Serving)
    (hcleared : ∀ query, t.phase = .executing query → t.last.code = .success) :
    Foreseen db busy w' (ts.set i t') s := by
  have hlength : i < ts.length := (List.getElem?_eq_some_iff.mp ht).1
  have hforesee := Terminal.foresee_of_works hworks hserving hcleared
  -- a worker that changes the database is the busy one, so the others do not mind
  have hquiet : ∀ j u, ts[j]? = some u → i ≠ j →
      (u.foresee db w').2 = (u.foresee db w).2 := by
    intro j u hu hij
    by_cases hbusy : busy = some i
    · have hsettled := h.settled j u hu (by rw [hbusy]; simpa using hij)
      rw [hsettled.foresee_eq db w' w]
    · rw [((h.settled i t ht hbusy).works hworks hserving.handles).1]
  refine ⟨?_, ?_, ?_, ?_⟩
  · apply List.ext_getElem?
    intro j
    rw [h.lines, List.getElem?_map, List.getElem?_map]
    by_cases hij : i = j
    · subst hij
      rw [List.getElem?_set_self hlength, ht]
      simp only [Option.map_some, hforesee]
    · rw [List.getElem?_set_ne hij]
      rcases hu : ts[j]? with _ | u
      · rfl
      · simp only [Option.map_some, hquiet j u hu hij]
  · intro j u hu hbusy
    by_cases hij : i = j
    · subst hij
      rw [List.getElem?_set_self hlength] at hu
      cases hu
      exact ((h.settled i t ht hbusy).works hworks hserving.handles).2
    · rw [List.getElem?_set_ne hij] at hu
      exact h.settled j u hu hbusy
  · intro hnone
    have hsettled := h.settled i t ht (by simp [hnone])
    rw [(hsettled.works hworks hserving.handles).1]
    exact h.calm hnone
  · intro j u hj hu
    by_cases hij : i = j
    · subst hij
      rw [List.getElem?_set_self hlength] at hu
      cases hu
      rw [hforesee]
      exact h.ahead i t hj ht
    · rw [List.getElem?_set_ne hij] at hu
      have hsettled := h.settled i t ht (by rw [hj]; simpa using Ne.symm hij)
      rw [(hsettled.works hworks hserving.handles).1]
      exact h.ahead j u hj hu

/-- The busy terminal changes by a call, and the desk with it. -/
theorem call
    {s' : Desk σ} {i : Nat} {t t' : Terminal} (h : Foreseen db (some i) w ts s)
    (ht : ts[i]? = some t)
    (hdesk : s' = ⟨(t'.foresee db w).1, s.lines.set i (t'.foresee db w).2⟩) :
    Foreseen db (some i) w (ts.set i t') s' := by
  have hlength : i < ts.length := (List.getElem?_eq_some_iff.mp ht).1
  subst hdesk
  refine ⟨?_, ?_, ?_, ?_⟩
  · rw [h.lines, List.map_set]
  · intro j u hu hbusy
    rw [List.getElem?_set_ne (by simpa using hbusy)] at hu
    exact h.settled j u hu hbusy
  · intro hnone
    cases hnone
  · intro j u hj hu
    cases hj
    rw [List.getElem?_set_self hlength] at hu
    cases hu
    rfl

/-- A terminal changes in a way that does not show in what it foretells. -/
theorem unseen
    {i : Nat} {t t' : Terminal} (h : Foreseen db (some i) w ts s) (ht : ts[i]? = some t)
    (hforesee : t'.foresee db w = t.foresee db w) :
    Foreseen db (some i) w (ts.set i t') s := by
  refine h.call ht ?_
  have hline := h.line_eq ht
  have hsame : s.lines.set i (t.foresee db w).2 = s.lines := by
    apply List.ext_getElem?
    intro j
    by_cases hij : i = j
    · subst hij
      rw [List.getElem?_set_self (List.getElem?_eq_some_iff.mp hline).1, hline]
    · rw [List.getElem?_set_ne hij]
  rw [hforesee, hsame, ← h.ahead i t rfl ht]

/-- A task is sent. -/
theorem send
    {i : Nat} {t : Terminal} (h : Foreseen db (some i) w ts s) (ht : ts[i]? = some t)
    (task : Task) :
    Foreseen db (some i) w (ts.set i { t with queue := t.queue ++ [task] })
      (s.submit db i task) := by
  refine h.call ht ?_
  rw [Desk.submit, h.line_eq ht, Terminal.foresee_send, h.ahead i t rfl ht]

/-- A task comes too late. -/
theorem reject
    {i : Nat} {t : Terminal} (h : Foreseen db (some i) w ts s) (ht : ts[i]? = some t)
    (hsealed : t.phase.isSealed = true) (task : Task) :
    Foreseen db (some i) w (ts.set i (t.reject task)) (s.submit db i task) := by
  have hphase : (t.reject task).phase = t.phase := by cases task <;> rfl
  have hline : (t.reject task).line.lost = t.line.lost := by cases task <;> rfl
  refine h.call ht ?_
  rw [Desk.submit, h.line_eq ht, h.ahead i t rfl ht, Terminal.foresee_of_isSealed db w hsealed,
    Terminal.foresee_of_isSealed db w (hphase ▸ hsealed), hline]
  rfl

/-- A result is marked as asked for. -/
theorem mark
    {i : Nat} {t : Terminal} (h : Foreseen db (some i) w ts s) (ht : ts[i]? = some t)
    (hunfetching : t.Unfetching) (name : String) :
    Foreseen db (some i) w (ts.set i (t.store name .notReady)) (s.mark i name) := by
  refine h.call ht ?_
  rw [Desk.mark, h.line_eq ht, Terminal.foresee_store db w hunfetching, h.ahead i t rfl ht]

/-- The database changes without a worker's doing. -/
theorem elsewhere
    (h : Foreseen db none w ts s) (w' : σ) : Foreseen db none w' ts { s with world := w' } where
  lines := by
    rw [h.lines]
    refine List.map_congr_left ?_
    intro t hin
    obtain ⟨i, hi⟩ := List.mem_iff_getElem?.mp hin
    rw [(h.settled i t hi (by simp)).foresee_eq db w w']
  settled := h.settled
  calm _ := rfl
  ahead _ _ hnone _ := by cases hnone

/-- A terminal is added. -/
theorem start
    (h : Foreseen db none w ts s) (w' : σ) (name : String) (connection : Nat) :
    Foreseen db none w' (ts ++ [{ name, connection : Terminal }])
      ⟨w', s.lines ++ [{ name, connection : Line }]⟩ where
  lines := by
    have hlines := (h.elsewhere w').lines
    rw [List.map_append, ← hlines]
    rfl
  settled i t ht _ := by
    rcases List.mem_append.mp (List.mem_iff_getElem?.mpr ⟨i, ht⟩) with hin | hin
    · obtain ⟨j, hj⟩ := List.mem_iff_getElem?.mp hin
      exact h.settled j t hj (by simp)
    · obtain rfl := List.mem_singleton.mp hin
      exact Or.inl ⟨rfl, Or.inl rfl⟩
  calm _ := rfl
  ahead _ _ hnone _ := by cases hnone

end Foreseen

/-! ## Calls in stages and at once -/

/-- What a desk makes of a call from a stage on. -/
def Desk.rest (db : Database σ) (s : Desk σ) (i : Nat) : Stage → Answer × Desk σ
  | .marking name => (.nothing, (s.mark i name).submit db i (.fetch name))
  | .counting task | .sending task | .uncounting task | .rejecting task =>
      (.nothing, s.submit db i task)
  | .readingRows name => (.ofExcept (s.rows i name), s)
  | .readingCode => (.value (s.code i), s)
  | .waiting | .claiming | .joining | .duplicating | .giving => (.nothing, s)

/-- What a desk makes of a call that has made a step. -/
def Desk.after (db : Database σ) (s : Desk σ) (i : Nat) : Progress → Answer × Desk σ
  | .goOn next => s.rest db i next
  | .done answer => (answer, s)

theorem perform_eq_rest
    (db : Database σ) (env : Environment) (s : Desk σ) (i : Nat) {method : Method}
    {argument : Option String} {call : Call} (h : callOf? method argument = some call) :
    (sequential db env).perform s i call = s.rest db i call.stage := by
  unfold callOf? at h
  split at h
  all_goals
    cases h
    try rfl

/-- What a stage needs of its terminal in order to find what the desk has. -/
def Suits (t : Terminal) : Stage → Prop
  | .marking _ => t.Unfetching
  | .readingRows _ | .readingCode => t.Settled
  | _ => True

/-- A caller who finds no task pending finds a settled terminal. -/
theorem settled_of_pending_zero
    {t : Terminal} {stages : Multiset Stage} {l : Ledger} (h : Orderly t stages l)
    (hdeserted : l.deserted = false) (hpending : t.pending = 0) : t.Settled := by
  by_cases hclosed : t.closed = true
  · exact Or.inr (h.closed_iff.mp hclosed)
  · obtain ⟨hqueue, htaken, -⟩ := h.completed_of_pending_zero (by simpa using hclosed) hpending
    exact Or.inl ⟨hqueue, h.ready_of_taken_eq htaken hdeserted⟩

/-- A step of a call changes the terminal as the desk says, or the desk has done the rest. -/
theorem Foreseen.callStep
    {db : Database σ} {w : σ} {ts : List Terminal} {s : Desk σ} {i : Nat} {t t' : Terminal}
    {stage : Stage} {p : Progress} {l : Ledger} (h : Foreseen db (some i) w ts s)
    (ht : ts[i]? = some t) (horderly : Orderly t {stage} l) (hserving : t.Serving)
    (hordinary : stage.Ordinary) (hsuits : Suits t stage)
    (hstep : t.callStep stage = some (t', p)) :
    ∃ s', Foreseen db (some i) w (ts.set i t') s' ∧ s.rest db i stage = s'.after db i p := by
  have hline := h.line_eq ht
  cases stage with
  | marking name =>
      cases hstep
      exact ⟨_, h.mark ht hsuits name, rfl⟩
  | counting task =>
      simp only [Terminal.callStep] at hstep
      split at hstep
      · cases hstep
        exact ⟨s, h.unseen ht rfl, rfl⟩
      · cases hstep
        exact ⟨s, h.unseen ht rfl, rfl⟩
  | sending task =>
      simp only [Terminal.callStep] at hstep
      split at hstep
      · cases hstep
        exact ⟨s, h.unseen ht rfl, rfl⟩
      · split at hstep
        · cases hstep
          exact ⟨_, h.send ht task, rfl⟩
        · cases hstep
  | uncounting task =>
      cases hstep
      exact ⟨s, h.unseen ht rfl, rfl⟩
  | rejecting task =>
      cases hstep
      have hclosed := horderly.rejecting task (Multiset.mem_singleton_self _)
      exact ⟨_, h.reject ht (horderly.closed_iff.mp hclosed) task, rfl⟩
  | waiting =>
      simp only [Terminal.callStep] at hstep
      split at hstep
      · cases hstep
        exact ⟨s, h.unseen ht rfl, rfl⟩
      · cases hstep
  | readingRows name =>
      cases hstep
      refine ⟨s, h.unseen ht rfl, ?_⟩
      have hread := (hsuits.read hserving db w).1 name
      simp only [Desk.rest, Desk.after, Desk.rows, hline, hread]
  | readingCode =>
      cases hstep
      refine ⟨s, h.unseen ht rfl, ?_⟩
      have hread := (hsuits.read hserving db w).2
      simp only [Desk.rest, Desk.after, Desk.code, hline, hread]
  | claiming => exact absurd (by simp) hordinary.2
  | joining => exact absurd (by simp) hordinary.2
  | duplicating => exact absurd (by simp) hordinary.2
  | giving => exact absurd (by simp) hordinary.2

end Case
end CaseSuite
