import PolicyBook.Proofs.Instants.FixedForm
import PolicyBook.Json.Canonical
import PolicyBook.Json.Form
/-!
The precision of time stamps.

A time stamp comes from a text in the fixed form, from an instant, from seconds or from a document.
The first three keep whole seconds, and then three views of a time stamp are one: which instant it
is, how it is shown, and how it is written. A document keeps a fraction, which is written but not
shown.

* **`Instant.eq_iff_iso`** — what is shown determines an instant up to the fraction;
* **`Instant.Source.isWhole_iff_agrees`** — the views agree exactly for the sources of instants
  without a fraction;
* **`Instant.halfSecond_disagrees`** — so they do not agree for all documents.
-/
namespace PolicyBook.Instant

variable {s t : Instant}

/-- The part of a second that is not shown. -/
def fraction (t : Instant) : Nat := t.nanos % nanosPerSecond

theorem nanos_eq (t : Instant) :
    t.nanos = (if t.isLeap then nanosPerSecond else 0) + t.fraction := by
  have hlt := t.nanos_lt
  have hbillion : nanosPerSecond = 1000000000 := rfl
  have hfraction : t.fraction = t.nanos % 1000000000 := rfl
  split
  · next hleap =>
    have := isLeap_iff.1 hleap
    omega
  · next hleap =>
    have := mt isLeap_iff.2 hleap
    omega

/-- The instant that is shown, which is the second without its fraction. -/
def shown (t : Instant) : Instant where
  seconds := t.seconds
  nanos := if t.isLeap then nanosPerSecond else 0
  first_le := t.first_le
  le_last := t.le_last
  nanos_lt := by split <;> decide
  leap h := by
    split at h
    · next hleap => exact t.leap (isLeap_iff.1 hleap)
    · exact absurd h (by decide)

theorem fraction_shown (t : Instant) : t.shown.fraction = 0 := by
  show (if t.isLeap then nanosPerSecond else 0) % nanosPerSecond = 0
  split <;> rfl

theorem iso_shown (t : Instant) : t.shown.iso = t.iso := by
  have hleap : t.shown.isLeap = t.isLeap := by
    show decide (nanosPerSecond ≤ if t.isLeap then nanosPerSecond else 0) = t.isLeap
    cases t.isLeap <;> rfl
  have htime : t.shown.timeText = t.timeText := by
    rw [timeText, timeText, hleap]
    rfl
  rw [iso, htime]
  rfl

theorem text_eq_iso (h : t.fraction = 0) : t.text = t.iso := by
  have hfraction : t.fractionText = [] := if_pos h
  rw [text, hfraction, List.append_nil, iso]

theorem iso_eq_iff : s.iso = t.iso ↔ s.shown = t.shown := by
  rw [← iso_shown s, ← iso_shown t, ← text_eq_iso s.fraction_shown, ← text_eq_iso t.fraction_shown]
  exact ⟨text_injective, congrArg text⟩

theorem eq_of_shown (hshown : s.shown = t.shown) (hfraction : s.fraction = t.fraction) :
    s = t := by
  have hseconds : s.shown.seconds = t.shown.seconds := congrArg seconds hshown
  have hnanos : s.shown.nanos = t.shown.nanos := congrArg nanos hshown
  refine ext hseconds ?_
  rw [nanos_eq s, nanos_eq t, hfraction]
  exact congrArg (· + t.fraction) hnanos

theorem eq_iff_iso : s = t ↔ s.iso = t.iso ∧ s.fraction = t.fraction := by
  constructor
  · rintro rfl
    exact ⟨rfl, rfl⟩
  · rintro ⟨hiso, hfraction⟩
    exact eq_of_shown (iso_eq_iff.1 hiso) hfraction

/-- Two instants are one as soon as they are shown alike, and then they are written alike. -/
structure ViewsAgree (s t : Instant) : Prop where
  eq_iff : s = t ↔ s.iso = t.iso
  encode_eq : s.iso = t.iso → encode s = encode t
  canonical_eq : s.iso = t.iso → (encode s).canonical = (encode t).canonical

theorem viewsAgree_of_fraction (h : s.fraction = t.fraction) : ViewsAgree s t := by
  have heq : s.iso = t.iso → s = t := fun hiso => eq_iff_iso.2 ⟨hiso, h⟩
  exact ⟨⟨congrArg iso, heq⟩, fun hiso => congrArg encode (heq hiso),
    fun hiso => congrArg (fun u : Instant => (encode u).canonical) (heq hiso)⟩

/-! ### Sources -/

inductive Source where
  | text (s : String)
  /-- An instant, taken to the second. -/
  | moment (t : Instant)
  | seconds (e : Int)
  | document (r : Json.Raw)

namespace Source

def instant? : Source → Option Instant
  | text s => (parse s).toOption
  | moment t => some t.truncated
  | seconds e => (ofSeconds e).toOption
  | document r => read? r

/-- The sources that are taken to the second, which are all but the documents. -/
def Truncates : Source → Prop
  | text _ | moment _ | seconds _ => True
  | document _ => False

def IsWhole (a : Source) : Prop := ∀ t, a.instant? = some t → t.fraction = 0

def Agrees (a b : Source) : Prop :=
  ∀ s t, a.instant? = some s → b.instant? = some t → ViewsAgree s t

variable {a b : Source}

theorem Truncates.nanos_eq (ha : a.Truncates) {t : Instant} (h : a.instant? = some t) :
    t.nanos = 0 := by
  cases a with
  | text s => exact nanos_of_parse (eq_ok_of_toOption h)
  | moment u => rw [← Option.some_inj.1 h, truncated]
  | seconds e => exact (ofSeconds_eq_ok_iff.1 (eq_ok_of_toOption h)).2
  | document r => exact ha.elim

theorem Truncates.isWhole (ha : a.Truncates) : a.IsWhole := by
  intro t ht
  rw [fraction, ha.nanos_eq ht]
  rfl

theorem IsWhole.agrees (ha : a.IsWhole) (hb : b.IsWhole) : a.Agrees b :=
  fun s t hs ht => viewsAgree_of_fraction ((ha s hs).trans (hb t ht).symm)

theorem instant?_document (t : Instant) :
    (document (.value (encode t))).instant? = some t := by
  show (some t.text).bind ofText? = some t
  rw [Option.bind_some, ofText?_text]

/-- The views of the time stamps of a source agree with those of all sources without a fraction
exactly if it has none itself; the sources that are taken to the second have none. -/
theorem isWhole_iff_agrees (a : Source) :
    (a.Truncates → a.IsWhole) ∧ (a.IsWhole ↔ ∀ b : Source, b.IsWhole → a.Agrees b) := by
  refine ⟨Truncates.isWhole, fun ha b hb => ha.agrees hb, fun h t ht => ?_⟩
  -- the second that is shown can be had as well, and it is shown in the same way
  let b : Source := .document (.value (encode t.shown))
  have hb : b.instant? = some t.shown := instant?_document t.shown
  have hwhole : b.IsWhole := by
    intro u hu
    rw [← Option.some_inj.1 (hb.symm.trans hu)]
    exact t.fraction_shown
  have heq : t = t.shown := (h b hwhole t t.shown ht hb).eq_iff.2 t.iso_shown.symm
  rw [heq]
  exact t.fraction_shown

end Source

/-- A document with half a second and a text without it are shown alike, but differ. -/
theorem halfSecond_disagrees : ¬ ∀ a b : Source, a.Agrees b := by
  intro h
  have hdocument : (Source.document (.value (.str "2026-03-01T09:15:30.5Z"))).instant? =
      some ⟨1772356530, 500000000, by decide, by decide, by decide, by decide⟩ := by rfl
  have htext : (Source.text "2026-03-01T09:15:30Z").instant? =
      some ⟨1772356530, 0, by decide, by decide, by decide, by decide⟩ := by rfl
  have hsame := (h _ _ _ _ hdocument htext).eq_iff.2 (by decide)
  exact absurd (congrArg nanos hsame) (by decide)

end PolicyBook.Instant
