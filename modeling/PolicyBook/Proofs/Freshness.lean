import PolicyBook.Proofs.Forms
import PolicyBook.Proofs.Interleaving.Growth
/-!
The dashboard is fresh.

Between the write of a record and the moment at which its call drops the cached dashboard, the write
is pending. The generation of the key counts these moments. Figures are cached only under the
generation that was read before the records were listed, so figures in the cache never lack a write
that was pending no more when they were listed.

* **`Run.listed_of_cached`** — figures in the cache were computed at a moment of the same
  generation;
* **`Run.cached_of_settled`** — as long as no write is pending, they are those of the present
  records;
* **`Run.answers_fresh`** — figures that are answered include every write that was settled before
  they were asked for;
* **`Office.dashboard_isFresh`** — all of this for every order of the steps.
-/
namespace PolicyBook

open Policy

variable {σ : Type}

namespace Operation

/-- The call has written a record and not yet dropped the cached dashboard. -/
def IsPending : Operation → Prop
  | apply (.saved ..) | create (.inserted _) => True
  | _ => False

/-- What a step does to the cache: it drops the dashboard after a write, keeps figures that were
computed, or does nothing. -/
theorem cache_step (office : Office σ) (op : Operation) (book : Book σ) :
    (op.IsPending ∧ (op.step office book).2.cache = book.cache.invalidate office.dashboardKey) ∨
    (¬op.IsPending ∧ (op.step office book).2.cache = book.cache) ∨
    (¬op.IsPending ∧ ∃ generation records, op = dashboard (.listed generation records) ∧
      (op.step office book).2.cache = book.cache.put office.dashboardKey
        (encode (Dashboard.ofRecords records)) generation) := by
  -- a write makes its call pending, and the next step of that call drops the dashboard
  rcases op with progress | progress | progress | progress
  · cases progress with
    | saved r t => exact .inl ⟨trivial, rfl⟩
    | asked request =>
      refine .inr (.inl ⟨id, ?_⟩)
      simp only [step, Apply.step]
      split <;> rfl
    | loaded request r =>
      refine .inr (.inl ⟨id, ?_⟩)
      simp only [step, Apply.step]
      split <;> rfl
    | judged r t =>
      refine .inr (.inl ⟨id, ?_⟩)
      simp only [step, Apply.step]
      split <;> rfl
    | invalidated r t => exact .inr (.inl ⟨id, rfl⟩)
    | finished result => exact .inr (.inl ⟨id, rfl⟩)
  · cases progress with
    | inserted draft => exact .inl ⟨trivial, rfl⟩
    | asked draft =>
      refine .inr (.inl ⟨id, ?_⟩)
      simp only [step, Create.step]
      split <;> rfl
    | finished result => exact .inr (.inl ⟨id, rfl⟩)
  · right
    cases progress with
    | listed generation records => exact .inr ⟨id, generation, records, rfl, rfl⟩
    | observed generation =>
      refine .inl ⟨id, ?_⟩
      simp only [step, DashboardQuery.step]
      split <;> rfl
    | asked => exact .inl ⟨id, rfl⟩
    | missed generation => exact .inl ⟨id, rfl⟩
    | finished d => exact .inl ⟨id, rfl⟩
  · refine .inr (.inl ?_)
    cases progress with
    | asked claim policy =>
      refine ⟨id, ?_⟩
      simp only [step, Announce.step]
      split <;> rfl
    | worded payload => exact ⟨id, rfl⟩
    | finished result => exact ⟨id, rfl⟩

end Operation

namespace Run

variable {run : Run σ}

def DropsAt (run : Run σ) (t i : Nat) : Prop :=
  run.schedule t = i ∧ (run.operation t i).IsPending

def generation (run : Run σ) (t : Nat) : Nat :=
  (run.book t).cache.generation run.office.dashboardKey

def cached? (run : Run σ) (t : Nat) : Option Json :=
  (run.book t).cache.get? run.office.dashboardKey

def figures (run : Run σ) (t : Nat) : Dashboard :=
  .ofRecords (run.book t).store.list

/-! ### Generations -/

/-- What a step does to the dashboard in the cache. -/
theorem cache_cases (run : Run σ) (t : Nat) :
    (run.DropsAt t (run.schedule t) ∧ run.cached? (t + 1) = none ∧
      run.generation (t + 1) = run.generation t + 1) ∨
    (¬run.DropsAt t (run.schedule t) ∧ run.generation (t + 1) = run.generation t ∧
      (run.cached? (t + 1) = run.cached? t ∨
        ∃ records, run.operation t (run.schedule t) =
            .dashboard (.listed (run.generation t) records) ∧
          run.cached? (t + 1) = some (encode (Dashboard.ofRecords records)))) := by
  rcases (run.operation t (run.schedule t)).cache_step run.office (run.book t) with
    ⟨hpending, hcache⟩ | ⟨hpending, hcache⟩ | ⟨hpending, observed, records, hop, hcache⟩
  all_goals rw [← book_succ] at hcache
  · refine .inl ⟨⟨rfl, hpending⟩, ?_, ?_⟩
    · rw [cached?, hcache, Cache.get?_invalidate, if_pos rfl]
    · rw [generation, hcache, Cache.generation_invalidate, if_pos rfl]
      rfl
  · refine .inr ⟨fun h => hpending h.2, ?_, .inl ?_⟩
    · rw [generation, hcache]
      rfl
    · rw [cached?, hcache]
      rfl
  · refine .inr ⟨fun h => hpending h.2, ?_, ?_⟩
    · rw [generation, hcache, Cache.generation_put]
      rfl
    · rw [cached?, hcache, Cache.get?_put]
      by_cases hadmits : (run.book t).cache.admits run.office.dashboardKey observed = true
      · obtain rfl : run.generation t = observed := beq_iff_eq.1 hadmits
        exact .inr ⟨records, hop, if_pos ⟨hadmits, rfl⟩⟩
      · exact .inl (if_neg fun h => hadmits h.1)

theorem generation_mono (run : Run σ) {a t : Nat} (h : a ≤ t) :
    run.generation a ≤ run.generation t := by
  induction h with
  | refl => exact Nat.le_refl _
  | step _ ih =>
    rename_i m _
    rcases run.cache_cases m with ⟨-, -, hgen⟩ | ⟨-, hgen, -⟩
    all_goals
      rw [hgen]
      omega

theorem generation_lt {a u t i : Nat} (hau : a ≤ u) (hut : u < t) (hdrop : run.DropsAt u i) :
    run.generation a < run.generation t := by
  have hbefore := run.generation_mono hau
  have hafter := run.generation_mono (show u + 1 ≤ t from hut)
  obtain rfl : run.schedule u = i := hdrop.1
  rcases run.cache_cases u with ⟨-, -, hgen⟩ | ⟨hnot, -⟩
  · omega
  · exact absurd hdrop hnot

/-! ### Pending writes -/

theorem pending_of_write {s : Nat} {w : Write} (hw : run.write? s = some w) :
    (run.operation (s + 1) w.call).IsPending := by
  rcases cases_of_write hw with ⟨r, change, -, hafter, -⟩ | ⟨-, hafter, -⟩
  all_goals
    rw [hafter]
    trivial

/-- A write that is pending no more was settled in between. -/
theorem exists_dropsAt {s t : Nat} {w : Write} (hw : run.write? s = some w) (hst : s < t)
    (hsettled : ¬(run.operation t w.call).IsPending) :
    ∃ u, s < u ∧ u < t ∧ run.DropsAt u w.call := by
  induction hst with
  | refl => exact absurd (pending_of_write hw) hsettled
  | step hle ih =>
    rename_i m
    -- the last moment at which the write is pending is the one that settles it
    by_cases hpending : (run.operation m w.call).IsPending
    · by_cases hi : run.schedule m = w.call
      · exact ⟨m, hle, by omega, hi, hpending⟩
      · rw [operation_succ_of_ne hi] at hsettled
        exact absurd hpending hsettled
    · obtain ⟨u, hsu, hum, hdrop⟩ := ih hpending
      exact ⟨u, hsu, by omega, hdrop⟩

theorem exists_write_of_pending {u i : Nat} (h : (run.operation u i).IsPending) :
    ∃ s < u, ∃ w, run.write? s = some w ∧ w.call = i := by
  have horigin := run.origin u i
  cases hop : run.operation u i with
  | apply progress =>
    rw [hop] at h horigin
    cases progress with
    | saved kept change =>
      obtain ⟨s, hs, hw⟩ := horigin
      exact ⟨s, hs, _, hw, rfl⟩
    | asked | loaded | judged | invalidated | finished => exact h.elim
  | create progress =>
    rw [hop] at h horigin
    cases progress with
    | inserted draft =>
      obtain ⟨s, hs, hw⟩ := horigin
      exact ⟨s, hs, _, hw, rfl⟩
    | asked | finished => exact h.elim
  | dashboard | announce =>
    rw [hop] at h
    exact h.elim

theorem write_lt_dropsAt {s u : Nat} {w : Write} (hw : run.write? s = some w)
    (hdrop : run.DropsAt u w.call) : s < u := by
  obtain ⟨s', hs', v, hv, hcall⟩ := exists_write_of_pending hdrop.2
  rcases Nat.lt_or_ge s u with hlt | hge
  · exact hlt
  · -- the call would write again
    have hkeeps := keeps_of_write hv (show s' < s by omega)
    rw [hcall] at hkeeps
    exact absurd hkeeps (not_keeps_of_write hw)

/-! ### Figures -/

/-- Figures in the cache are those of a moment since which no write was settled. -/
theorem listed_of_cached (hstart : run.cached? 0 = none) (t : Nat) :
    ∀ v, run.cached? t = some v → ∃ a m, a ≤ m ∧ m ≤ t ∧ run.generation a = run.generation t ∧
      v = encode (run.figures m) := by
  induction t with
  | zero =>
    intro v hv
    exact absurd (hstart.symm.trans hv) (by simp)
  | succ t ih =>
    intro v hv
    rcases run.cache_cases t with ⟨-, hnone, -⟩ | ⟨-, hgen, hsame | ⟨records, hop, hput⟩⟩
    · exact absurd (hnone.symm.trans hv) (by simp)
    · rw [hsame] at hv
      obtain ⟨a, m, ham, hmt, hgen', rfl⟩ := ih v hv
      exact ⟨a, m, ham, by omega, hgen'.trans hgen.symm, rfl⟩
    · -- the figures are kept in the generation that was read before the records were listed
      have horigin := run.origin t (run.schedule t)
      rw [hop] at horigin
      obtain ⟨m, hm, a, ha, ⟨-, -, hread⟩, rfl⟩ := horigin
      have hv := Option.some_inj.1 (hput.symm.trans hv)
      exact ⟨a, m, by omega, by omega, hread.symm.trans hgen.symm, hv.symm⟩

/-- A write that was settled before a moment of the same generation was in the store at the earlier
moment. -/
theorem write_lt_of_generation {a m t s u : Nat} {w : Write} (ham : a ≤ m)
    (hgen : run.generation a = run.generation t) (hw : run.write? s = some w)
    (hdrop : run.DropsAt u w.call) (hut : u < t) : s < m := by
  have hsu := write_lt_dropsAt hw hdrop
  rcases Nat.lt_or_ge u a with hlt | hge
  · omega
  · have := generation_lt hge hut hdrop
    omega

theorem store_eq_of_no_write {m t : Nat} (h : m ≤ t)
    (hnone : ∀ s, m ≤ s → s < t → run.write? s = none) :
    (run.book t).store = (run.book m).store := by
  induction h with
  | refl => rfl
  | step hle ih =>
    rename_i n
    rw [store_of_no_write (hnone n hle (by omega))]
    exact ih fun s hms hsn => hnone s hms (by omega)

theorem cached_of_settled (hstart : run.cached? 0 = none) {t : Nat}
    (hsettled : ∀ i, ¬(run.operation t i).IsPending) {v : Json} (hv : run.cached? t = some v) :
    v = encode (run.figures t) := by
  obtain ⟨a, m, ham, hmt, hgen, rfl⟩ := listed_of_cached hstart t v hv
  have hstore : (run.book t).store = (run.book m).store := by
    refine store_eq_of_no_write hmt fun s hms hst => ?_
    cases hw : run.write? s with
    | none => rfl
    | some w =>
      obtain ⟨u, -, hut, hdrop⟩ := exists_dropsAt hw hst (hsettled w.call)
      have := write_lt_of_generation ham hgen hw hdrop hut
      omega
  rw [figures, figures, hstore]

theorem answers_fresh (hstart : run.cached? 0 = none) {a t i : Nat} {d : Dashboard}
    (hi : run.schedule a = i) (hasked : run.operation a i = .dashboard .asked)
    (hop : run.operation t i = .dashboard (.finished d)) :
    ∃ m < t, d = run.figures m ∧
      ∀ s u w, run.write? s = some w → run.DropsAt u w.call → u < a → s < m := by
  have horigin := run.origin t i
  rw [hop] at horigin
  obtain ⟨m, hmt, b, hbm, generation, ⟨hib, hbegun, -⟩, hcached | hcomputed⟩ := horigin
  all_goals
    obtain rfl : a = b := moment_unique hi hib (by rw [hasked, hbegun])
      (by rw [hasked]; exact Nat.succ_pos 4)
  · -- figures from the cache are those of an earlier moment of the same generation
    obtain ⟨v, hv, hdecode⟩ := Option.bind_eq_some_iff.1 hcached
    obtain ⟨a', m', ham', hmm', hgen, rfl⟩ := listed_of_cached hstart m v hv
    refine ⟨m', by omega, Dashboard.eq_of_decode? hdecode, ?_⟩
    intro s u w hw hdrop hu
    exact write_lt_of_generation ham' hgen hw hdrop (by omega)
  · refine ⟨m, hmt, hcomputed, ?_⟩
    intro s u w hw hdrop hu
    have := write_lt_dropsAt hw hdrop
    omega

/-! ### Answers -/

theorem operation_of_dashboard {i : Nat} (hcall : run.calls i = .dashboard) (t : Nat) :
    ∃ progress, run.operation t i = .dashboard progress := by
  induction t with
  | zero => exact ⟨.asked, by show (run.calls i).begin = _; rw [hcall]; rfl⟩
  | succ t ih =>
    obtain ⟨progress, hop⟩ := ih
    by_cases hi : run.schedule t = i
    · rw [operation_succ_self hi, hop]
      exact ⟨_, rfl⟩
    · rw [operation_succ_of_ne hi]
      exact ⟨progress, hop⟩

/-- Every step of its own brings a call to a further stage. -/
theorem count_le_stage (run : Run σ) (t i : Nat) :
    min ((List.range t).countP fun u => run.schedule u = i) 5 ≤ (run.operation t i).stage := by
  induction t with
  | zero => exact Nat.zero_le _
  | succ t ih =>
    rw [List.range_succ, List.countP_append, List.countP_singleton]
    -- a step of another call counts for neither side
    by_cases hi : run.schedule t = i
    · rw [if_pos (by simpa using hi), operation_succ_self hi]
      rcases (run.operation t i).stage_step run.office (run.book t) with hlt | ⟨hfive, heq⟩
      · omega
      · rw [heq, hfive]
        omega
    · rw [if_neg (by simpa using hi), operation_succ_of_ne hi]
      exact ih

theorem dashboard_answers {t i : Nat} (hcall : run.calls i = .dashboard)
    (hcount : 4 ≤ (List.range t).countP fun u => run.schedule u = i) :
    ∃ d, run.operation t i = .dashboard (.finished d) := by
  have hstage := run.count_le_stage t i
  obtain ⟨progress, hop⟩ := operation_of_dashboard hcall t
  rw [hop] at hstage
  cases progress with
  | finished d => exact ⟨d, hop⟩
  | asked =>
    have : Operation.stage (.dashboard .asked) = 0 := rfl
    omega
  | observed generation =>
    have : Operation.stage (.dashboard (.observed generation)) = 1 := rfl
    omega
  | missed generation =>
    have : Operation.stage (.dashboard (.missed generation)) = 2 := rfl
    omega
  | listed generation records =>
    have : Operation.stage (.dashboard (.listed generation records)) = 3 := rfl
    omega

theorem dashboard_alone {a i : Nat} (n : Nat) {progress : DashboardQuery}
    (hop : run.operation a i = .dashboard progress)
    (halone : ∀ u, a ≤ u → u < a + n → run.schedule u = i) :
    run.operation (a + n) i = .dashboard (progress.steps run.office n (run.book a)).1 ∧
      run.book (a + n) = (progress.steps run.office n (run.book a)).2 := by
  induction n generalizing a progress with
  | zero => exact ⟨hop, rfl⟩
  | succ n ih =>
    have hi := halone a (Nat.le_refl a) (by omega)
    have hnext : run.operation (a + 1) i =
        .dashboard (progress.step run.office (run.book a)).1 := by
      rw [operation_succ_self hi, hop]
      rfl
    have hbook : run.book (a + 1) = (progress.step run.office (run.book a)).2 := by
      rw [book_succ, hi, hop]
      rfl
    have hrest := ih hnext fun u hau hu => halone u (by omega) (by omega)
    rw [hbook, show a + 1 + n = a + (n + 1) by omega] at hrest
    exact hrest

theorem dashboard_of_settled (hstart : run.cached? 0 = none) {a : Nat}
    (hsettled : ∀ i, ¬(run.operation a i).IsPending) :
    (run.office.dashboard (run.book a)).1 = run.figures a ∧
      (run.office.dashboard (run.book a)).2.store = (run.book a).store := by
  unfold Office.dashboard
  cases hcached : run.office.cachedDashboard? (run.book a) with
  | none => exact ⟨rfl, rfl⟩
  | some d =>
    obtain ⟨v, hv, hdecode⟩ := Option.bind_eq_some_iff.1 hcached
    rw [cached_of_settled hstart hsettled hv] at hdecode
    exact ⟨Dashboard.eq_of_decode? hdecode, rfl⟩

theorem dashboard_of_alone (hstart : run.cached? 0 = none) {a i : Nat}
    (hasked : run.operation a i = .dashboard .asked)
    (hsettled : ∀ j, ¬(run.operation a j).IsPending)
    (halone : ∀ u, a ≤ u → u < a + 4 → run.schedule u = i) :
    run.operation (a + 4) i = .dashboard (.finished (run.figures (a + 4))) := by
  obtain ⟨hop, hbook⟩ := dashboard_alone 4 hasked halone
  rw [DashboardQuery.steps_asked] at hop hbook
  obtain ⟨hfigures, hstore⟩ := dashboard_of_settled hstart hsettled
  rw [hop, hfigures, figures, figures, hbook, hstore]

/-- What a run shows as its dashboard is never out of date. -/
structure IsFresh (run : Run σ) : Prop where
  /-- As long as no write is pending, cached figures are those of the records of now. -/
  cached : ∀ t, (∀ i, ¬(run.operation t i).IsPending) → ∀ v, run.cached? t = some v →
    v = encode (run.figures t)
  /-- Figures that are answered are those of a moment before the answer, and include every write
  that was settled before the call began. -/
  answered : ∀ a t i d, run.schedule a = i → run.operation a i = .dashboard .asked →
    run.operation t i = .dashboard (.finished d) → ∃ m < t, d = run.figures m ∧
      ∀ s u w, run.write? s = some w → run.DropsAt u w.call → u < a → s < m
  /-- A call is answered with its fourth step, if not before. -/
  returns : ∀ t i, run.calls i = .dashboard →
    4 ≤ (List.range t).countP (fun u => run.schedule u = i) →
      ∃ d, run.operation t i = .dashboard (.finished d)
  /-- A call during which nobody else makes a step, begun with no write pending, answers the figures
  of now. -/
  alone : ∀ a i, run.operation a i = .dashboard .asked →
    (∀ j, ¬(run.operation a j).IsPending) → (∀ u, a ≤ u → u < a + 4 → run.schedule u = i) →
      run.operation (a + 4) i = .dashboard (.finished (run.figures (a + 4)))

end Run

/-- The dashboard is fresh in every run that begins with a new book, whatever is asked for and in
whichever order the steps are taken. -/
theorem Office.dashboard_isFresh (office : Office σ) (calls : Nat → Call) (desk : σ)
    (schedule : Nat → Nat) : Run.IsFresh ⟨office, calls, .new desk, schedule⟩ where
  cached _ hsettled _ hv := Run.cached_of_settled rfl hsettled hv
  answered _ _ _ _ hi hasked hop := Run.answers_fresh rfl hi hasked hop
  returns _ _ hcall hcount := Run.dashboard_answers hcall hcount
  alone _ _ hasked hsettled halone := Run.dashboard_of_alone rfl hasked hsettled halone

end PolicyBook
