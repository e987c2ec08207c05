import PolicyBook.Json.Reading
/-!
What is left of a text behind a piece that was taken off.

Every reader takes characters off the front and changes none of them, so what it leaves is an end of
what it was given. This ties what was read to the place in the text where it was written.

* **`Json.numeral?_suffix`**, **`Json.pieces?_suffix`** — behind a numeral, behind a quoted text;
* **`Json.scalar?_suffix`** — behind a part that is neither a list nor an object;
* **`Json.suffix_of_unspaced`** — behind space and one more character.
-/
namespace PolicyBook.Json

open Text

variable {cs rest : List Char}

theorem unspaced_suffix (cs : List Char) : unspaced cs <:+ cs :=
  List.dropWhile_suffix _

theorem suffix_of_unspaced {c : Char} (h : unspaced cs = c :: rest) : rest <:+ cs :=
  (List.suffix_cons c rest).trans (h ▸ unspaced_suffix cs)

theorem word?_suffix {word : List Char} (h : word? word cs = some rest) : rest <:+ cs := by
  rw [word?, Option.ite_none_right_eq_some] at h
  rw [← Option.some_inj.1 h.2]
  exact List.drop_suffix _ _

/-! ### Numerals -/

theorem digits_suffix (limit : Nat) (cs : List Char) : (digits limit cs).2 <:+ cs := by
  fun_induction digits limit cs with
  | case1 => exact List.suffix_rfl
  | case2 c cs limit d _ ds rest heq ih =>
    rw [heq] at ih
    exact ih.trans (List.suffix_cons c cs)
  | case3 => exact List.suffix_rfl

theorem suffix_of_digits {limit : Nat} {ds : List Nat} (h : digits limit cs = (ds, rest)) :
    rest <:+ cs := by
  have hsuffix := digits_suffix limit cs
  rwa [h] at hsuffix

theorem wholeDigits?_suffix {ds : List Nat} (h : wholeDigits? cs = some (ds, rest)) :
    rest <:+ cs := by
  rw [wholeDigits?] at h
  split at h
  · exact absurd h nofun
  · next hdigits =>
    rw [Option.ite_none_left_eq_some] at h
    obtain ⟨-, rfl⟩ := Prod.mk.inj (Option.some_inj.1 h.2)
    exact suffix_of_digits hdigits

theorem fractionDigits?_suffix {ds : List Nat} (h : fractionDigits? cs = some (ds, rest)) :
    rest <:+ cs := by
  rw [fractionDigits?] at h
  split at h
  · split at h
    · exact absurd h nofun
    · next hdigits =>
      obtain ⟨-, rfl⟩ := Prod.mk.inj (Option.some_inj.1 h)
      exact (suffix_of_digits hdigits).trans (List.tail_suffix cs)
  · obtain ⟨-, rfl⟩ := Prod.mk.inj (Option.some_inj.1 h)
    exact List.suffix_rfl

theorem exponent?_suffix {exponent : Option Int} (h : exponent? cs = some (exponent, rest)) :
    rest <:+ cs := by
  rw [exponent?] at h
  split at h
  · dsimp only at h
    split at h
    · exact absurd h nofun
    · next hdigits =>
      obtain ⟨-, rfl⟩ := Prod.mk.inj (Option.some_inj.1 h)
      refine (suffix_of_digits hdigits).trans ?_
      split
      · exact (List.tail_suffix _).trans (List.tail_suffix cs)
      · exact List.tail_suffix cs
  · obtain ⟨-, rfl⟩ := Prod.mk.inj (Option.some_inj.1 h)
    exact List.suffix_rfl

theorem numeral?_suffix {n : Numeral} (h : numeral? cs = some (n, rest)) : rest <:+ cs := by
  obtain ⟨⟨whole, rest₁⟩, hwhole, h⟩ := Option.bind_eq_some_iff.1 h
  obtain ⟨⟨fraction, rest₂⟩, hfraction, h⟩ := Option.bind_eq_some_iff.1 h
  obtain ⟨⟨exponent, rest₃⟩, hexponent, h⟩ := Option.bind_eq_some_iff.1 h
  obtain ⟨-, rfl⟩ := Prod.mk.inj (Option.some_inj.1 h)
  have hunsigned : (if cs.head? = some '-' then cs.tail else cs) <:+ cs := by
    split
    · exact List.tail_suffix cs
    · exact List.suffix_rfl
  refine ((exponent?_suffix hexponent).trans (fractionDigits?_suffix hfraction)).trans
    ((wholeDigits?_suffix hwhole).trans ?_)
  simpa using hunsigned

/-! ### Quoted texts -/

theorem codeUnit?_suffix {unit : Nat} (h : codeUnit? cs = some (unit, rest)) : rest <:+ cs := by
  match cs with
  | [] | [_] | [_, _] | [_, _, _] => exact absurd h nofun
  | a :: b :: c :: d :: rest₁ =>
    obtain ⟨_, -, h⟩ := Option.bind_eq_some_iff.1 h
    obtain ⟨_, -, h⟩ := Option.bind_eq_some_iff.1 h
    obtain ⟨_, -, h⟩ := Option.bind_eq_some_iff.1 h
    obtain ⟨_, -, h⟩ := Option.bind_eq_some_iff.1 h
    obtain ⟨-, rfl⟩ := Prod.mk.inj (Option.some_inj.1 h)
    exact ⟨[a, b, c, d], rfl⟩

theorem escape?_suffix {piece : Piece} (h : escape? cs = some (piece, rest)) : rest <:+ cs := by
  cases cs with
  | nil => exact absurd h nofun
  | cons c cs =>
    refine List.IsSuffix.trans ?_ (List.suffix_cons c cs)
    rw [escape?] at h
    iterate 6
      split at h
      · obtain ⟨-, rfl⟩ := Prod.mk.inj (Option.some_inj.1 h)
        exact List.suffix_rfl
    split at h
    · obtain ⟨⟨unit, rest₁⟩, hunit, heq⟩ := Option.map_eq_some_iff.1 h
      obtain ⟨-, rfl⟩ := Prod.mk.inj heq
      exact codeUnit?_suffix hunit
    · exact absurd h nofun

theorem unquoted?_suffix {limit : Nat} {pieces : List Piece}
    (h : unquoted? limit cs = some (pieces, rest)) : rest <:+ cs := by
  induction limit generalizing cs pieces with
  | zero => exact absurd h nofun
  | succ limit ih =>
    cases cs with
    | nil => exact absurd h nofun
    | cons c cs =>
      refine List.IsSuffix.trans ?_ (List.suffix_cons c cs)
      rw [unquoted?] at h
      split at h
      · obtain ⟨-, rfl⟩ := Prod.mk.inj (Option.some_inj.1 h)
        exact List.suffix_rfl
      split at h
      · obtain ⟨⟨piece, rest₁⟩, hpiece, h⟩ := Option.bind_eq_some_iff.1 h
        obtain ⟨⟨pieces₁, rest₂⟩, hpieces, h⟩ := Option.bind_eq_some_iff.1 h
        obtain ⟨-, rfl⟩ := Prod.mk.inj (Option.some_inj.1 h)
        exact (ih hpieces).trans (escape?_suffix hpiece)
      split at h
      · exact absurd h nofun
      · obtain ⟨⟨pieces₁, rest₁⟩, hpieces, h⟩ := Option.bind_eq_some_iff.1 h
        obtain ⟨-, rfl⟩ := Prod.mk.inj (Option.some_inj.1 h)
        exact ih hpieces

theorem pieces?_suffix {pieces : List Piece} (h : pieces? cs = some (pieces, rest)) :
    rest <:+ cs := by
  rw [pieces?.eq_def] at h
  split at h
  · exact (unquoted?_suffix h).trans (List.suffix_cons _ _)
  · exact absurd h nofun

/-! ### Parts -/

theorem scalar?_suffix {r : Raw} (h : scalar? cs = some (r, rest)) : rest <:+ cs := by
  rw [scalar?.eq_def] at h
  split at h
  · obtain ⟨⟨pieces, rest₁⟩, hpieces, h⟩ := Option.bind_eq_some_iff.1 h
    obtain ⟨-, rfl⟩ := Prod.mk.inj (Option.some_inj.1 h)
    exact pieces?_suffix hpieces
  iterate 3
    · obtain ⟨rest₁, hword, h⟩ := Option.bind_eq_some_iff.1 h
      obtain ⟨-, rfl⟩ := Prod.mk.inj (Option.some_inj.1 h)
      exact word?_suffix hword
  · obtain ⟨⟨numeral, rest₁⟩, hnumeral, h⟩ := Option.bind_eq_some_iff.1 h
    obtain ⟨-, rfl⟩ := Prod.mk.inj (Option.some_inj.1 h)
    exact numeral?_suffix hnumeral

end PolicyBook.Json
