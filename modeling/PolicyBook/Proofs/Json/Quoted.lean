import PolicyBook.Json.Quoted
/-!
Texts between quotation marks read back.

Every character has one written form, and the reader takes it off as the piece that is this
character:

* **`Json.unquoted?_escaped`** — the written form of a text is taken off, up to the closing mark;
* **`Json.quote_append_inj`** — a quoted text and what follows it can be told apart.
-/
namespace PolicyBook.Json

open Text

theorem codeUnit?_control {c : Char} (h : c.toNat < 0x20) (rest : List Char) :
    codeUnit? ('0' :: '0' :: hexByte c.toNat.toUInt8 ++ rest) = some (c.toNat, rest) := by
  have hbyte : c.toNat.toUInt8.toNat = c.toNat := Nat.mod_eq_of_lt (by omega)
  have hhigh : (Fin.ofNat 16 (c.toNat / 16)).val = c.toNat / 16 := Nat.mod_eq_of_lt (by omega)
  have hlow : (Fin.ofNat 16 (c.toNat % 16)).val = c.toNat % 16 := Nat.mod_eq_of_lt (by omega)
  have hzero : hexDigit? '0' = some 0 := by decide
  rw [hexByte, hbyte]
  simp only [List.cons_append, List.nil_append, codeUnit?, hzero, hexDigit?_hexDigit, hhigh, hlow,
    Option.bind_eq_bind, Option.bind_some]
  refine congrArg some (Prod.ext ?_ rfl)
  show ((0 * 16 + 0) * 16 + c.toNat / 16) * 16 + c.toNat % 16 = c.toNat
  omega

theorem unquoted?_escape {c : Char} {text rest : List Char} (limit : Nat)
    (h : escape? text = some (.char c, rest)) :
    unquoted? (limit + 1) ('\\' :: text) =
      (unquoted? limit rest).map fun result => (.char c :: result.1, result.2) := by
  rw [unquoted?, if_neg (by decide), if_pos rfl, h]
  simp only [Option.bind_eq_bind, Option.bind_some]
  cases unquoted? limit rest <;> rfl

theorem unquoted?_escaped_append (c : Char) (rest : List Char) (limit : Nat) :
    unquoted? (limit + 1) (escaped c ++ rest) =
      (unquoted? limit rest).map fun result => (.char c :: result.1, result.2) := by
  rw [escaped]
  -- the characters with a letter of their own
  iterate 7
    split
    · next h =>
      subst h
      exact unquoted?_escape limit rfl
  split
  · next hcontrol =>
    refine unquoted?_escape limit ?_
    have hunit := codeUnit?_control hcontrol rest
    have hpiece : Piece.ofUnit c.toNat = .char c := by
      rw [Piece.ofUnit, if_neg (by omega), if_neg (by omega), Char.ofNat_toNat]
    show Option.map _ (codeUnit? ('0' :: '0' :: hexByte c.toNat.toUInt8 ++ rest)) = _
    rw [hunit]
    exact congrArg (fun piece => some (piece, rest)) hpiece
  · next hquote hbackslash _ _ _ _ _ hplain =>
    show unquoted? (limit + 1) (c :: rest) = _
    rw [unquoted?, if_neg hquote, if_neg hbackslash, if_neg hplain]
    cases unquoted? limit rest <;> rfl

/-- The written form of a text is taken off, up to the closing quotation mark. -/
theorem unquoted?_escaped (cs rest : List Char) {limit : Nat} (h : cs.length < limit) :
    unquoted? limit (cs.flatMap escaped ++ '"' :: rest) = some (cs.map Piece.char, rest) := by
  obtain ⟨limit, rfl⟩ : ∃ n, limit = n + 1 := ⟨limit - 1, by omega⟩
  induction cs generalizing limit with
  | nil => rfl
  | cons c cs ih =>
    rw [List.length_cons] at h
    obtain ⟨limit, rfl⟩ : ∃ n, limit = n + 1 := ⟨limit - 1, by omega⟩
    rw [List.flatMap_cons, List.append_assoc, unquoted?_escaped_append, ih limit (by omega)]
    rfl

theorem map_char_inj {cs ds : List Char} (h : cs.map Piece.char = ds.map Piece.char) : cs = ds :=
  (List.map_inj_right fun _ _ => Piece.char.inj).1 h

/-- A quoted text and what follows it can be told apart. -/
theorem quote_append_inj {s t : String} {r r' : List Char} (h : quote s ++ r = quote t ++ r') :
    s = t ∧ r = r' := by
  -- read both texts with a limit that neither reaches
  let limit := s.toList.length + t.toList.length + 1
  have hs := unquoted?_escaped s.toList r (show s.toList.length < limit by omega)
  have ht := unquoted?_escaped t.toList r' (show t.toList.length < limit by omega)
  have htext : s.toList.flatMap escaped ++ '"' :: r = t.toList.flatMap escaped ++ '"' :: r' := by
    simpa [quote] using h
  rw [htext, ht] at hs
  obtain ⟨hpieces, hrest⟩ := Prod.mk.inj (Option.some_inj.1 hs)
  exact ⟨String.toList_inj.1 (map_char_inj hpieces).symm, hrest.symm⟩

end PolicyBook.Json
