import PolicyBook.Proofs.Json.Lossless
import PolicyBook.Proofs.Json.NameOrder
/-!
The order of members in canonical texts.

The members of every object stand in the order of their written names. The canonical form prescribes
the order of code units, so a canonical text has the prescribed order exactly if no object has two
names about which the two orders disagree.

* **`IsNormal.arranged_inWrittenOrder`** — the order in which members are written;
* **`canonical_isArranged`** — the order in a canonical text, and when it is the prescribed one;
* **`longer_comes_first`** — two names for which it is not.
-/
namespace PolicyBook.Json

/-- In every object at any depth the names of members are in relation to those behind them. -/
inductive Arranged (rel : String → String → Prop) : Json → Prop where
  | null : Arranged rel .null
  | bool (b : Bool) : Arranged rel (.bool b)
  | int (n : Int) : Arranged rel (.int n)
  | float (x : Double) : Arranged rel (.float x)
  | str (s : String) : Arranged rel (.str s)
  | arr (items : List Json) (h : ∀ v ∈ items, Arranged rel v) : Arranged rel (.arr items)
  | obj (members : List (String × Json)) (pairwise : members.Pairwise fun a b => rel a.1 b.1)
    (h : ∀ m ∈ members, Arranged rel m.2) : Arranged rel (.obj members)

theorem Arranged.of_both {rel rel' rel'' : String → String → Prop} {v : Json}
    (h : v.Arranged rel) (h' : v.Arranged rel')
    (himp : ∀ a b, rel a b → rel' a b → rel'' a b) : v.Arranged rel'' := by
  induction h with
  | null => exact .null
  | bool b => exact .bool b
  | int n => exact .int n
  | float x => exact .float x
  | str s => exact .str s
  | arr items _ ih =>
    cases h' with | arr _ hitems =>
    exact .arr _ fun v hv => ih v hv (hitems v hv)
  | obj members hpairwise _ ih =>
    cases h' with | obj _ hpairwise' hmembers =>
    refine .obj _ ?_ fun m hm => ih m hm (hmembers m hm)
    exact (hpairwise.and hpairwise').imp fun hboth => himp _ _ hboth.1 hboth.2

theorem pairwise_written {members : List (String × Json)} (hnames : (members.map Prod.fst).Nodup) :
    (ordered writtenLe members).Pairwise fun a b => Written a.1 b.1 := by
  have hle : (ordered writtenLe members).Pairwise fun a b => writtenLe a b = true := by
    refine pairwise_ordered (fun a b c hab hbc => ?_) (fun a b => ?_) members
    · simp only [writtenLe, Bool.not_eq_true', decide_eq_false_iff_not, List.not_lt] at *
      exact List.le_trans hab hbc
    · simp only [writtenLe, Bool.not_eq_true', decide_eq_false_iff_not, List.not_lt]
      exact List.le_total _ _
  have hne : (ordered writtenLe members).Pairwise fun a b => a.1 ≠ b.1 :=
    List.pairwise_map.1 (((ordered_perm writtenLe members).map Prod.fst).nodup_iff.2 hnames)
  refine (hle.and hne).imp fun {a b} hboth => ?_
  refine (written_or hboth.2).resolve_right fun hgt => ?_
  have hnot : decide (quote b.1 < quote a.1) = false := by simpa [writtenLe] using hboth.1
  exact of_decide_eq_false hnot hgt

theorem IsNormal.arranged_inWrittenOrder {v : Json} (h : v.IsNormal) :
    v.inWrittenOrder.Arranged Written := by
  induction h with
  | null => exact .null
  | bool b => exact .bool b
  | int n => exact .int n
  | float x => exact .float x
  | str s => exact .str s
  | arr items _ ih =>
    rw [inWrittenOrder, itemsInWrittenOrder_eq_map]
    refine .arr _ fun v hv => ?_
    obtain ⟨item, hitem, rfl⟩ := List.mem_map.1 hv
    exact ih item hitem
  | obj members hincreasing _ ih =>
    rw [inWrittenOrder, membersInWrittenOrder_eq_map]
    refine .obj _ (pairwise_written (hincreasing.map_snd _).nodup) fun m hm => ?_
    obtain ⟨m', hm', rfl⟩ := List.mem_map.1 ((ordered_perm _ _).mem_iff.1 hm)
    exact ih m' hm'

/-- A text is that of a value without floating-point numbers. No other value has this text. -/
def IsTextOf (text : List Char) (w : Json) : Prop := w.firstFloat? = none ∧ w.compact = text

theorem IsTextOf.unique {text : List Char} {w w' : Json} (h : IsTextOf text w)
    (h' : IsTextOf text w') : w = w' :=
  compact_injective h.1 h'.1 (h.2.trans h'.2.symm)

/-- The order of members in the canonical text of a value. -/
structure IsArranged (v : Json) (text : List Char) : Prop where
  /-- The text is that of one value, which means the same. -/
  text_of : ∃ w, IsTextOf text w ∧ Alike w v
  /-- In every object of the text the names are in the order in which they are written. -/
  written : ∀ w, IsTextOf text w → w.Arranged Written
  /-- They are in the prescribed order exactly if the two orders do not disagree about any of them,
  and so they are if all are ordinary. -/
  prescribed_iff : ∀ w, IsTextOf text w →
    (w.Arranged Prescribed ↔ w.Arranged fun a b => ¬Reversed b.toList a.toList)
  ordinary : ∀ w, IsTextOf text w →
    (w.Arranged fun a b => ∀ c ∈ b.toList ++ a.toList, Ordinary c) → w.Arranged Prescribed

theorem canonical_isArranged {v : Json} {text : List Char} (h : v.canonical = .ok text) :
    v.IsArranged text := by
  have hnone : v.normal.firstFloat? = none ∧ v.normal.inWrittenOrder.compact = text := by
    unfold canonical at h
    split at h
    · exact absurd h (by simp)
    · next hnone => exact ⟨hnone, Except.ok.inj h⟩
  have htext : IsTextOf text v.normal.inWrittenOrder :=
    ⟨firstFloat?_inWrittenOrder hnone.1, hnone.2⟩
  have hwritten (w : Json) (hw : IsTextOf text w) : w.Arranged Written := by
    rw [hw.unique htext]
    exact (isNormal_normal v).arranged_inWrittenOrder
  have hprescribed (w : Json) (hw : IsTextOf text w) :
      w.Arranged Prescribed ↔ w.Arranged fun a b => ¬Reversed b.toList a.toList := by
    constructor
    · intro h
      exact (hwritten w hw).of_both h fun a b hab => hab.prescribed_iff.1
    · intro h
      exact (hwritten w hw).of_both h fun a b hab => hab.prescribed_iff.2
  refine ⟨⟨_, htext, inWrittenOrder_normal_alike v⟩, hwritten, hprescribed, fun w hw h => ?_⟩
  refine (hprescribed w hw).2 (h.of_both h fun a b hordinary _ => ?_)
  obtain ⟨hb, ha⟩ := List.forall_mem_append.1 hordinary
  exact not_reversed hb ha

/-- Of two names made of letters the one that begins the other comes first. -/
theorem shorter_comes_first :
    (Json.obj [("ab", .int 2), ("a", .int 1)]).canonical = .ok "\x7b\"a\":1,\"ab\":2\x7d".toList ∧
      (Json.obj [("a", .int 1), ("ab", .int 2)]).Arranged Prescribed := by
  have hcanonical : (Json.obj [("ab", .int 2), ("a", .int 1)]).canonical =
      .ok "\x7b\"a\":1,\"ab\":2\x7d".toList :=
    (canonical_eq_ok rfl).trans (congrArg Except.ok (by decide))
  refine ⟨hcanonical, (canonical_isArranged hcanonical).ordinary _ ⟨rfl, rfl⟩ ?_⟩
  have hletters (c : Char) (hc : c ∈ ['a', 'b', 'a']) : Ordinary c := by
    unfold Ordinary
    simp only [List.mem_cons, List.not_mem_nil, or_false] at hc
    rcases hc with rfl | rfl | rfl <;> decide
  refine .obj _ ?_ fun m hm => ?_
  · exact List.pairwise_pair.2 hletters
  · simp only [List.mem_cons, List.not_mem_nil, or_false] at hm
    rcases hm with rfl | rfl <;> exact .int _

/-- Where one name goes on with an exclamation mark the longer one comes first. -/
theorem longer_comes_first : ¬∀ (v : Json) (text : List Char), v.canonical = .ok text →
    ∀ w, IsTextOf text w → w.Arranged Prescribed := by
  intro h
  have hcanonical : (Json.obj [("a", .int 1), ("a!", .int 2)]).canonical =
      .ok "\x7b\"a!\":2,\"a\":1\x7d".toList :=
    (canonical_eq_ok rfl).trans (congrArg Except.ok (by decide))
  have harranged := h _ _ hcanonical (.obj [("a!", .int 2), ("a", .int 1)]) ⟨rfl, rfl⟩
  cases harranged with | obj _ hpairwise _ =>
  unfold Prescribed at hpairwise
  revert hpairwise
  decide

end PolicyBook.Json
