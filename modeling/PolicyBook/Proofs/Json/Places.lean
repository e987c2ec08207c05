import PolicyBook.Proofs.Bytes
import PolicyBook.Proofs.Json.Alike
/-!
The first floating-point number of a value.

A place in a value is a row of steps: to an item of a list by its number, to a member of an object
by its name. Places are in order when lists are walked item by item and objects in the order of the
bytes of their names. What stands at a place does not change when members are put in another order
and members that do not count are left out, so the number that is found first by going through the
normal form is the first one by its place in the value itself.

* **`Json.at?_normal`** — the normal form has the same places;
* **`Json.at?_ne_float_iff`** — when no number is found there is none at any place;
* **`Json.isFirstFloat_iff`** — the number that is found first is the first one by its place.
-/
namespace PolicyBook.Json

open Text

inductive Step where
  | item (i : Nat)
  | member (name : String)

/-- What a step leads to; under a repeated name that is the last member. -/
def step? : Json → Step → Option Json
  | .arr items, .item i => items[i]?
  | .obj members, .member name => (Json.obj members).member? name
  | _, _ => none

def at? : Json → List Step → Option Json
  | v, [] => some v
  | v, step :: rest => (v.step? step).bind fun w => w.at? rest

/-- Of two steps into one value the first comes before the second: items in their order, members in
the order of the bytes of their names. -/
inductive Step.Before : Step → Step → Prop where
  | item {i j : Nat} (h : i < j) : Before (.item i) (.item j)
  | member {a b : String} (h : a.toUTF8.toList < b.toUTF8.toList) : Before (.member a) (.member b)

def Precedes (place place' : List Step) : Prop := List.Lex Step.Before place place'

/-- At a place there is a floating-point number, and every other place with one comes later. -/
def IsFirstFloat (v : Json) (place : List Step) (x : Double) : Prop :=
  v.at? place = some (.float x) ∧
    ∀ place' y, v.at? place' = some (.float y) → place' = place ∨ Precedes place place'

/-! ### The order of places -/

theorem Step.before_member_iff {a b : String} :
    Step.Before (.member a) (.member b) ↔ a.toList < b.toList := by
  have hbytes : a.toUTF8.toList < b.toUTF8.toList ↔ a.toList < b.toList := by
    rw [← bytes_lt_iff, String.ofList_toList, String.ofList_toList]
  rw [← hbytes]
  exact ⟨fun h => by cases h with | member h => exact h, .member⟩

theorem Step.Before.asymm {s t : Step} (h : s.Before t) : ¬t.Before s := by
  intro h'
  cases h with
  | item h =>
    cases h' with
    | item h' => exact Nat.lt_asymm h h'
  | member h =>
    cases h' with
    | member h' => exact List.lt_asymm h h'

theorem IsFirstFloat.unique {v : Json} {place place' : List Step} {x y : Double}
    (h : v.IsFirstFloat place x) (h' : v.IsFirstFloat place' y) : x = y := by
  have hplace : place' = place := by
    rcases h.2 place' y h'.1 with heq | hprecedes
    · exact heq
    · rcases h'.2 place x h.1 with heq | hprecedes'
      · exact heq.symm
      · exact absurd hprecedes' (List.lex_asymm Step.Before.asymm hprecedes)
  have hvalue := h.1
  rw [← hplace, h'.1] at hvalue
  exact (Json.float.inj (Option.some_inj.1 hvalue)).symm

/-! ### Places in the normal form -/

theorem Increasing.member?_obj {members : List (String × Json)} (h : Increasing members)
    (name : String) : (Json.obj members).member? name = members.lookup name := by
  rw [Json.member?_obj, lookup_eq_of_perm (List.reverse_perm members) h.nodup]

theorem step?_normal (v : Json) (step : Step) :
    v.normal.step? step = (v.step? step).map normal := by
  cases v with
  | null | bool | int | float | str => rfl
  | arr items =>
    rw [normal, normalItems_eq_map]
    cases step with
    | item i => exact List.getElem?_map
    | member name => rfl
  | obj members =>
    rw [normal]
    cases step with
    | item i => rfl
    | member name =>
      have hincreasing := increasing_normalMembers List.Pairwise.nil members
      show (Json.obj (normalMembers [] members)).member? name = _
      rw [hincreasing.member?_obj, lookup_normalMembers, List.lookup_nil, Option.or_none,
        ← member?_obj]
      rfl

/-- The normal form has the same places, with the normal forms of what stands there. -/
theorem at?_normal (v : Json) (place : List Step) :
    v.normal.at? place = (v.at? place).map normal := by
  induction place generalizing v with
  | nil => rfl
  | cons step rest ih =>
    rw [at?, at?, step?_normal]
    cases v.step? step with
    | none => rfl
    | some w => exact ih w

theorem normal_eq_float_iff {v : Json} {x : Double} : v.normal = .float x ↔ v = .float x := by
  cases v <;> simp [normal]

theorem at?_normal_eq_float_iff {v : Json} {place : List Step} {x : Double} :
    v.normal.at? place = some (.float x) ↔ v.at? place = some (.float x) := by
  rw [at?_normal, Option.map_eq_some_iff]
  simp only [normal_eq_float_iff, exists_eq_right]

theorem mem_of_step? {members : List (String × Json)} {name : String} {w : Json}
    (h : (Json.obj members).step? (.member name) = some w) : (name, w) ∈ members := by
  rw [step?, member?_obj] at h
  obtain ⟨front, back, hsplit, -⟩ := List.lookup_eq_some_iff.1 h
  have hmem : (name, w) ∈ members.reverse := hsplit ▸ List.mem_append_right _ List.mem_cons_self
  exact List.mem_reverse.1 hmem

/-! ### Going through a value -/

theorem firstFloatOfItems?_eq_findSome? (items : List Json) :
    firstFloatOfItems? items = items.findSome? firstFloat? := by
  induction items with
  | nil => rfl
  | cons v rest ih =>
    rw [firstFloatOfItems?, ih, List.findSome?_cons]
    cases v.firstFloat? <;> rfl

theorem firstFloatOfMembers?_eq_findSome? (members : List (String × Json)) :
    firstFloatOfMembers? members = members.findSome? fun m => m.2.firstFloat? := by
  induction members with
  | nil => rfl
  | cons m rest ih =>
    rw [firstFloatOfMembers?, ih, List.findSome?_cons]
    cases m.2.firstFloat? <;> rfl

theorem firstFloat?_of_step? {v w : Json} {step : Step} (h : v.firstFloat? = none)
    (hstep : v.step? step = some w) : w.firstFloat? = none := by
  cases v with
  | null | bool | int | float | str => exact absurd hstep (by simp [step?])
  | arr items =>
    rw [firstFloat?, firstFloatOfItems?_eq_none_iff] at h
    cases step with
    | item i => exact h w (List.mem_of_getElem? hstep)
    | member name => exact absurd hstep (by simp [step?])
  | obj members =>
    rw [firstFloat?, firstFloatOfMembers?_eq_none_iff] at h
    cases step with
    | item i => exact absurd hstep (by simp [step?])
    | member name => exact h _ (mem_of_step? hstep)

theorem at?_ne_float {v : Json} (h : v.firstFloat? = none) (place : List Step) (x : Double) :
    v.at? place ≠ some (.float x) := by
  induction place generalizing v with
  | nil =>
    rintro hvalue
    obtain rfl : v = .float x := Option.some_inj.1 hvalue
    exact absurd h (by simp [firstFloat?])
  | cons step rest ih =>
    intro hvalue
    obtain ⟨w, hstep, hw⟩ := Option.bind_eq_some_iff.1 hvalue
    exact ih (firstFloat?_of_step? h hstep) hw

theorem IsFirstFloat.arr {before behind : List Json} {v : Json} {place : List Step} {x : Double}
    (hbefore : ∀ w ∈ before, w.firstFloat? = none) (h : v.IsFirstFloat place x) :
    (Json.arr (before ++ v :: behind)).IsFirstFloat (.item before.length :: place) x := by
  have hhere : (before ++ v :: behind)[before.length]? = some v := by simp
  refine ⟨by rw [at?, step?, hhere]; exact h.1, fun place' y hvalue => ?_⟩
  obtain _ | ⟨step, rest⟩ := place'
  · exact absurd (Option.some_inj.1 hvalue) Json.noConfusion
  obtain ⟨w, hstep, hw⟩ := Option.bind_eq_some_iff.1 hvalue
  cases step with
  | member name => exact absurd hstep (by simp [step?])
  | item i =>
    rcases Nat.lt_trichotomy i before.length with hlt | rfl | hgt
    · have hmem : w ∈ before := by
        rw [step?, List.getElem?_append_left hlt] at hstep
        exact List.mem_of_getElem? hstep
      exact absurd hw (at?_ne_float (hbefore w hmem) rest y)
    · obtain rfl := Option.some_inj.1 (hhere.symm.trans hstep)
      rcases h.2 rest y hw with rfl | hprecedes
      · exact .inl rfl
      · exact .inr (.cons hprecedes)
    · exact .inr (.rel (.item hgt))

theorem IsFirstFloat.obj {before behind : List (String × Json)} {m : String × Json}
    {place : List Step} {x : Double} (hincreasing : Increasing (before ++ m :: behind))
    (hbefore : ∀ m' ∈ before, m'.2.firstFloat? = none) (h : m.2.IsFirstFloat place x) :
    (Json.obj (before ++ m :: behind)).IsFirstFloat (.member m.1 :: place) x := by
  have hmember (name : String) (w : Json) :
      (Json.obj (before ++ m :: behind)).step? (.member name) = some w ↔
        (name, w) ∈ before ++ m :: behind := by
    rw [step?, hincreasing.member?_obj, lookup_eq_some_iff_mem hincreasing.nodup]
  have hhere := (hmember m.1 m.2).2 (List.mem_append_right _ List.mem_cons_self)
  refine ⟨by rw [at?, hhere]; exact h.1, fun place' y hvalue => ?_⟩
  obtain _ | ⟨step, rest⟩ := place'
  · exact absurd (Option.some_inj.1 hvalue) Json.noConfusion
  obtain ⟨w, hstep, hw⟩ := Option.bind_eq_some_iff.1 hvalue
  cases step with
  | item i => exact absurd hstep (by simp [step?])
  | member name =>
    have hmem := (hmember name w).1 hstep
    rcases List.mem_append.1 hmem with hmem | hmem
    · exact absurd hw (at?_ne_float (hbefore _ hmem) rest y)
    · rcases List.mem_cons.1 hmem with rfl | hmem
      · rcases h.2 rest y hw with rfl | hprecedes
        · exact .inl rfl
        · exact .inr (.cons hprecedes)
      · -- later members have later names
        have hlater := List.rel_of_pairwise_cons (List.pairwise_append.1 hincreasing).2.1 hmem
        exact .inr (.rel (Step.before_member_iff.2 hlater))

/-- What is found first in a normal form stands first in it. -/
theorem IsNormal.exists_isFirstFloat {v : Json} {x : Double} (hv : v.IsNormal)
    (h : v.firstFloat? = some x) : ∃ place, v.IsFirstFloat place x := by
  induction hv with
  | null | bool | int | str => exact absurd h (by simp [firstFloat?])
  | float x' =>
    obtain rfl := Option.some_inj.1 h
    refine ⟨[], rfl, fun place' y hvalue => ?_⟩
    cases place' with
    | nil => exact .inl rfl
    | cons step rest => exact absurd hvalue (by simp [at?, step?])
  | arr items _ ih =>
    rw [firstFloat?, firstFloatOfItems?_eq_findSome?] at h
    obtain ⟨before, w, behind, rfl, hw, hbefore⟩ := List.findSome?_eq_some_iff.1 h
    obtain ⟨place, hplace⟩ := ih w (List.mem_append_right _ List.mem_cons_self) hw
    exact ⟨_, .arr hbefore hplace⟩
  | obj members hincreasing _ ih =>
    rw [firstFloat?, firstFloatOfMembers?_eq_findSome?] at h
    obtain ⟨before, m, behind, rfl, hm, hbefore⟩ := List.findSome?_eq_some_iff.1 h
    obtain ⟨place, hplace⟩ := ih m (List.mem_append_right _ List.mem_cons_self) hm
    exact ⟨_, .obj hincreasing hbefore hplace⟩

/-! ### Values and their normal forms -/

theorem isFirstFloat_normal_iff {v : Json} {place : List Step} {x : Double} :
    v.normal.IsFirstFloat place x ↔ v.IsFirstFloat place x := by
  simp only [IsFirstFloat, at?_normal_eq_float_iff]

theorem at?_ne_float_iff {v : Json} :
    v.normal.firstFloat? = none ↔ ∀ place x, v.at? place ≠ some (.float x) := by
  constructor
  · intro h place x hvalue
    exact at?_ne_float h place x (at?_normal_eq_float_iff.2 hvalue)
  · intro h
    cases hfirst : v.normal.firstFloat? with
    | none => rfl
    | some x =>
      obtain ⟨place, hplace⟩ := (isNormal_normal v).exists_isFirstFloat hfirst
      exact absurd (at?_normal_eq_float_iff.1 hplace.1) (h place x)

theorem isFirstFloat_iff {v : Json} {x : Double} :
    v.normal.firstFloat? = some x ↔ ∃ place, v.IsFirstFloat place x := by
  constructor
  · intro h
    obtain ⟨place, hplace⟩ := (isNormal_normal v).exists_isFirstFloat h
    exact ⟨place, isFirstFloat_normal_iff.1 hplace⟩
  · rintro ⟨place, hplace⟩
    cases hfirst : v.normal.firstFloat? with
    | none => exact absurd hplace.1 (at?_ne_float_iff.1 hfirst place x)
    | some y =>
      obtain ⟨place', hplace'⟩ := (isNormal_normal v).exists_isFirstFloat hfirst
      rw [hplace.unique (isFirstFloat_normal_iff.1 hplace')]

end PolicyBook.Json
