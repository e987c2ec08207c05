import Mathlib.Data.List.Induction
import Mathlib.Data.List.Nodup
import PolicyBook.Inbox.Calls
/-!
Messages and the calls that came behind them.

A message is looked at together with the calls that came behind it. It is still there if none of
them removed the messages, and it was read if one of them marked it; nothing else about it ever
changes. Calls change the messages that are there and those that they write in the same way, so a
run is told from any point in its middle.

* **`items_foldl`** — what any number of calls make of an inbox;
* **`items_after`** — what is shown after calls, told from the calls;
* **`shown_append`** — what was shown at some time, seen from later.
-/
namespace PolicyBook

namespace Inbox

/-! ### Messages and what came behind them -/

/-- A message when it was written, and the calls behind it. -/
structure Writing where
  message : Notification
  behind : List Call

namespace Writing

def id (w : Writing) : Uuid := w.message.id

def remains (w : Writing) : Bool := !w.behind.any Call.clears

def isMarked (w : Writing) : Bool := w.behind.any (Call.marks w.id)

def shown (w : Writing) : Notification := { w.message with read := w.isMarked }

end Writing

/-- The message that a call writes as the `k`th, if it writes one. -/
def Call.writing? (supply : Supply) (k : Nat) (behind : List Call) (call : Call) :
    Option Writing :=
  call.message?.map fun (user, content) =>
    ⟨⟨supply.id k, user, content, false, supply.now k⟩, behind⟩

def writeCount (past : List Call) : Nat := past.countP fun call => call.message?.isSome

/-- The messages that calls write, the first of them being the `k`th. -/
def writings (supply : Supply) : Nat → List Call → List Writing
  | _, [] => []
  | k, call :: rest =>
    (call.writing? supply k rest).toList ++ writings supply (k + writeCount [call]) rest

def remaining (supply : Supply) (k : Nat) (past : List Call) : List Writing :=
  (writings supply k past).filter Writing.remains

def shown (supply : Supply) (past : List Call) : List Notification :=
  (remaining supply 0 past).map Writing.shown

def after (supply : Supply) (past : List Call) : Inbox :=
  past.foldl (fun inbox call => (call.on inbox).2) (empty supply)

/-- What calls leave of messages that were there before. -/
def survivors (past : List Call) (items : List Notification) : List Notification :=
  if past.any Call.clears then [] else
    items.map fun n => { n with read := n.read || past.any (Call.marks n.id) }

theorem survivors_nil (items : List Notification) : survivors [] items = items := by
  simp [survivors]

theorem survivors_append (past : List Call) (xs ys : List Notification) :
    survivors past (xs ++ ys) = survivors past xs ++ survivors past ys := by
  unfold survivors
  split <;> simp

/-- A call that neither marks nor removes anything does not show on messages that are there. -/
theorem survivors_cons_of_idle {call : Call} (hclears : call.clears = false)
    (hmarks : ∀ id, call.marks id = false) (past : List Call) (items : List Notification) :
    survivors (call :: past) items = survivors past items := by
  simp [survivors, hclears, hmarks]

theorem map_shown_writing? (supply : Supply) (k : Nat) (behind : List Call) (call : Call) :
    ((call.writing? supply k behind).toList.filter Writing.remains).map Writing.shown =
      survivors behind ((call.writing? supply k behind).toList.map Writing.message) := by
  unfold Call.writing? survivors
  cases call.message? with
  | none => simp
  | some message =>
    by_cases h : behind.any Call.clears
    · simp [Writing.remains, h]
    · simp [Writing.remains, Writing.shown, Writing.isMarked, Writing.id, h]

/-! ### Identifiers -/

theorem writeCount_append (before behind : List Call) :
    writeCount (before ++ behind) = writeCount before + writeCount behind :=
  List.countP_append

theorem map_id_writings (supply : Supply) (k : Nat) (past : List Call) :
    (writings supply k past).map Writing.id =
      (List.range' k (writeCount past)).map supply.id := by
  induction past generalizing k with
  | nil => rfl
  | cons call rest ih =>
    have hone : (call.writing? supply k rest).toList.map Writing.id =
        (List.range' k (writeCount [call])).map supply.id := by
      cases hmessage : call.message? <;> simp [Call.writing?, Writing.id, writeCount, hmessage]
    rw [writings, List.map_append, ih, hone, ← List.map_append, List.range'_append_1,
      ← writeCount_append]
    rfl

theorem nodup_map_id_writings {supply : Supply} {past : List Call}
    (hfresh : supply.IsFresh (writeCount past)) :
    ((writings supply 0 past).map Writing.id).Nodup := by
  rw [map_id_writings]
  refine List.Nodup.map_on ?_ List.nodup_range'
  intro i hi j hj hid
  rw [List.mem_range'_1] at hi hj
  exact hfresh i (by omega) j (by omega) hid

/-! ### Marking -/

theorem markFirst_eq_self {id : Uuid} {items : List Notification}
    (h : id ∉ items.map Notification.id) : markFirst id items = items := by
  induction items with
  | nil => rfl
  | cons n rest ih =>
    rw [List.map_cons, List.mem_cons, not_or] at h
    rw [markFirst, if_neg (Ne.symm h.1), ih h.2]

theorem markFirst_eq_map {items : List Notification} (hids : (items.map Notification.id).Nodup)
    (id : Uuid) :
    markFirst id items = items.map fun n => if n.id = id then { n with read := true } else n := by
  induction items with
  | nil => rfl
  | cons n rest ih =>
    obtain ⟨hnot, hrest⟩ := List.nodup_cons.1 hids
    rw [markFirst, List.map_cons, ← ih hrest]
    by_cases h : n.id = id
    · rw [if_pos h, if_pos h, markFirst_eq_self (by rwa [← h])]
    · rw [if_neg h, if_neg h]

theorem map_id_markFirst (id : Uuid) (items : List Notification) :
    (markFirst id items).map Notification.id = items.map Notification.id := by
  induction items with
  | nil => rfl
  | cons n rest ih =>
    rw [markFirst]
    split
    · rfl
    · rw [List.map_cons, List.map_cons, ih]

theorem markFirst_markFirst (id : Uuid) (items : List Notification) :
    markFirst id (markFirst id items) = markFirst id items := by
  induction items with
  | nil => rfl
  | cons n rest ih =>
    by_cases h : n.id = id
    · simp [markFirst, h]
    · simp [markFirst, h, ih]

theorem contains_iff {inbox : Inbox} {id : Uuid} :
    inbox.contains id = true ↔ id ∈ inbox.items.map Notification.id := by
  simp [contains]

theorem contains_markRead (inbox : Inbox) (id : Uuid) :
    (inbox.markRead id).contains id = inbox.contains id := by
  rw [Bool.eq_iff_iff, contains_iff, contains_iff, markRead, map_id_markFirst]

/-- A mark that is set now is set on the messages that are left later. -/
theorem survivors_markFirst {items : List Notification} (hids : (items.map Notification.id).Nodup)
    (id : Uuid) (past : List Call) :
    survivors past (markFirst id items) = survivors (.mark id :: past) items := by
  rw [markFirst_eq_map hids, survivors, survivors, List.any_cons, Call.clears, Bool.false_or]
  split
  · rfl
  · rw [List.map_map]
    refine List.map_congr_left fun n _ => ?_
    by_cases h : n.id = id
    · subst h
      simp [Call.marks]
    · simp [Call.marks, h, Ne.symm h]

/-! ### Runs -/

theorem supply_on (call : Call) (inbox : Inbox) : (call.on inbox).2.supply = inbox.supply := by
  cases call <;> rfl

theorem issued_on (call : Call) (inbox : Inbox) :
    (call.on inbox).2.issued = inbox.issued + writeCount [call] := by
  cases call <;> rfl

theorem map_id_on (call : Call) (inbox : Inbox) (behind : List Call) :
    List.Sublist ((call.on inbox).2.items.map Notification.id)
      (inbox.items.map Notification.id ++
        (call.writing? inbox.supply inbox.issued behind).toList.map Writing.id) := by
  cases call with
  | create _ _ | hear _ => simp [Call.on, create, Call.writing?, Call.message?, Writing.id]
  | mark id => simp [Call.on, markRead, map_id_markFirst, Call.writing?, Call.message?]
  | clear => simp [Call.on, Inbox.clear]
  | all | ofUser _ | unread _ => simp [Call.on]

/-- What one call does, seen from later: messages that were there are left or not, and the message
that is written is left or not. -/
theorem survivors_on (call : Call) (inbox : Inbox) (hids : (inbox.items.map Notification.id).Nodup)
    (behind : List Call) :
    survivors behind (call.on inbox).2.items =
      survivors (call :: behind) inbox.items ++
        survivors behind
          ((call.writing? inbox.supply inbox.issued behind).toList.map Writing.message) := by
  have hsilent (call : Call) (h : call.message? = none) : survivors behind
      ((call.writing? inbox.supply inbox.issued behind).toList.map Writing.message) = [] := by
    simp [Call.writing?, h, survivors]
  cases call with
  | create _ _ | hear _ =>
    rw [survivors_cons_of_idle rfl fun _ => rfl, ← survivors_append]
    rfl
  | mark id =>
    rw [hsilent _ rfl, List.append_nil]
    exact survivors_markFirst hids id behind
  | clear => rfl
  | all | ofUser _ | unread _ =>
    rw [hsilent _ rfl, List.append_nil, survivors_cons_of_idle rfl fun _ => rfl]
    rfl

/-- What any number of calls make of an inbox: what they leave of the messages that were there, and
of those that they write. -/
theorem items_foldl (past : List Call) (inbox : Inbox)
    (hids : (inbox.items.map Notification.id ++
      (writings inbox.supply inbox.issued past).map Writing.id).Nodup) :
    (past.foldl (fun inbox call => (call.on inbox).2) inbox).items =
      survivors past inbox.items ++
        (remaining inbox.supply inbox.issued past).map Writing.shown := by
  induction past generalizing inbox with
  | nil =>
    rw [survivors_nil]
    exact (List.append_nil _).symm
  | cons call rest ih =>
    rw [writings, List.map_append, ← List.append_assoc] at hids
    have hnext : ((call.on inbox).2.items.map Notification.id ++ (writings
        (call.on inbox).2.supply (call.on inbox).2.issued rest).map Writing.id).Nodup := by
      rw [supply_on, issued_on]
      exact ((map_id_on call inbox rest).append_right _).nodup hids
    have hnow : (inbox.items.map Notification.id).Nodup :=
      (List.nodup_append.1 (List.nodup_append.1 hids).1).1
    rw [List.foldl_cons, ih _ hnext, survivors_on call inbox hnow, supply_on, issued_on,
      ← map_shown_writing?, List.append_assoc, ← List.map_append, remaining, ← List.filter_append]
    rfl

theorem after_concat (supply : Supply) (past : List Call) (call : Call) :
    after supply (past ++ [call]) = (call.on (after supply past)).2 := by
  rw [after, List.foldl_append]
  rfl

theorem supply_after (supply : Supply) (past : List Call) :
    (after supply past).supply = supply := by
  induction past using List.reverseRecOn with
  | nil => rfl
  | append_singleton past call ih => rw [after_concat, supply_on, ih]

theorem issued_after (supply : Supply) (past : List Call) :
    (after supply past).issued = writeCount past := by
  induction past using List.reverseRecOn with
  | nil => rfl
  | append_singleton past call ih => rw [after_concat, issued_on, ih, writeCount_append]

variable {supply : Supply} {past before behind : List Call}

theorem items_after (hfresh : supply.IsFresh (writeCount past)) :
    (after supply past).items = shown supply past := by
  rw [after, items_foldl past (empty supply) (nodup_map_id_writings hfresh)]
  unfold survivors
  split <;> rfl

theorem map_id_shown_sublist (supply : Supply) (past : List Call) :
    List.Sublist ((shown supply past).map Notification.id)
      ((writings supply 0 past).map Writing.id) := by
  rw [shown, List.map_map]
  exact List.filter_sublist.map _

/-- The identifiers of messages continue where those of earlier messages end. -/
theorem nodup_map_id_append (hfresh : supply.IsFresh (writeCount (before ++ behind))) :
    ((writings supply 0 before).map Writing.id ++
      (writings supply (writeCount before) behind).map Writing.id).Nodup := by
  have h := nodup_map_id_writings hfresh
  rw [map_id_writings, writeCount_append, ← List.range'_append_1, List.map_append,
    ← map_id_writings, Nat.zero_add, ← map_id_writings] at h
  exact h

theorem isFresh_before (hfresh : supply.IsFresh (writeCount (before ++ behind))) :
    supply.IsFresh (writeCount before) := by
  intro i hi j hj
  rw [writeCount_append] at hfresh
  exact hfresh i (by omega) j (by omega)

theorem shown_append (hfresh : supply.IsFresh (writeCount (before ++ behind))) :
    shown supply (before ++ behind) = survivors behind (shown supply before) ++
      (remaining supply (writeCount before) behind).map Writing.shown := by
  have hids := ((map_id_shown_sublist supply before).append_right _).nodup
    (nodup_map_id_append hfresh)
  have hthen := items_foldl behind (after supply before)
  rw [supply_after, issued_after, items_after (isFresh_before hfresh)] at hthen
  rw [← items_after hfresh, after, List.foldl_append, ← after, hthen hids]

end Inbox

end PolicyBook
