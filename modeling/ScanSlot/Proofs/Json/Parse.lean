import ScanSlot.Json.Parse
import ScanSlot.Proofs.Json.Layout

/-! A document is read from its tokens and from nothing else, and so from just the texts that hold
them. -/
namespace ScanSlot.Json

namespace Value

/-! ### A document is read from its tokens -/

theorem tokens_front (v : Value) : ∃ t ts, v.tokens = t :: ts ∧ t ≠ .closeArray := by
  cases v <;> exact ⟨_, _, rfl, nofun⟩

theorem itemTokens_front (v : Value) (items : List Value) :
    ∃ t ts, itemTokens (v :: items) = t :: ts ∧ t ≠ .closeArray := by
  obtain ⟨t, ts, same, item⟩ := v.tokens_front
  cases items with
  | nil => exact ⟨t, ts, same, item⟩
  | cons w items =>
    refine ⟨t, ts ++ .comma :: itemTokens (w :: items), ?_, item⟩
    rw [itemTokens, same, List.cons_append]
    exact List.cons_ne_nil w items

theorem memberTokens_front (m : Option String × Value) (members : List (Option String × Value)) :
    ∃ ts, memberTokens (m :: members) = .text m.1 :: ts := by
  cases members <;> exact ⟨_, rfl⟩

/-- The first item of an array is read like any other. -/
theorem foldlM_firstItem {t : Token} (item : t ≠ .closeArray) (ts : List Token)
    (stack : List Frame) :
    (t :: ts).foldlM step (.firstItem stack) =
      (t :: ts).foldlM step (.value (.array [] :: stack)) := by
  cases t with
  | closeArray => contradiction
  | _ => rfl

/-- So is the first name of an object. -/
theorem foldlM_firstName (name : Option String) (ts : List Token) (stack : List Frame) :
    (.text name :: ts).foldlM step (.firstName stack) =
      (.text name :: ts).foldlM step (.name [] stack) :=
  rfl

mutual

/-- Whatever is open, a value's tokens complete the value. -/
theorem foldlM_tokens (v : Value) (stack : List Frame) :
    v.tokens.foldlM step (.value stack) = some (.complete v stack) := by
  match v with
  | null | bool _ | number _ | text _ => rfl
  | array [] | object [] => rfl
  | array (v :: items) =>
    have inner := foldlM_itemTokens (v :: items) (List.cons_ne_nil v items) [] stack
    obtain ⟨t, ts, same, item⟩ := itemTokens_front v items
    change (itemTokens (v :: items) ++ [Token.closeArray]).foldlM step (.firstItem stack) = _
    rw [same, List.cons_append] at inner ⊢
    rw [foldlM_firstItem item]
    exact inner
  | object (m :: members) =>
    have inner := foldlM_memberTokens (m :: members) (List.cons_ne_nil m members) [] stack
    obtain ⟨ts, same⟩ := memberTokens_front m members
    change (memberTokens (m :: members) ++ [Token.closeObject]).foldlM step (.firstName stack) = _
    rw [same, List.cons_append] at inner ⊢
    rw [foldlM_firstName]
    exact inner

theorem foldlM_itemTokens (items : List Value) (nonempty : items ≠ []) (done : List Value)
    (stack : List Frame) :
    (itemTokens items ++ [Token.closeArray]).foldlM step (.value (.array done :: stack)) =
      some (.complete (.array (done.reverse ++ items)) stack) := by
  match items with
  | [v] =>
    have first := foldlM_tokens v (.array done :: stack)
    rw [itemTokens, List.foldlM_append, first]
    simp [step]
  | v :: w :: items =>
    have first := foldlM_tokens v (.array done :: stack)
    have later := foldlM_itemTokens (w :: items) (List.cons_ne_nil w items) (v :: done) stack
    rw [itemTokens, List.append_assoc, List.foldlM_append, first]
    · simpa [step] using later
    · exact List.cons_ne_nil w items

theorem foldlM_memberTokens (members : List (Option String × Value)) (nonempty : members ≠ [])
    (done : List (Option String × Value)) (stack : List Frame) :
    (memberTokens members ++ [Token.closeObject]).foldlM step (.name done stack) =
      some (.complete (.object (done.reverse ++ members)) stack) := by
  match members with
  | [(name, v)] =>
    have first := foldlM_tokens v (.object done name :: stack)
    simp [memberTokens, step, first]
  | (name, v) :: m :: members =>
    have first := foldlM_tokens v (.object done name :: stack)
    have later := foldlM_memberTokens (m :: members) (List.cons_ne_nil m members)
      ((name, v) :: done) stack
    simpa [memberTokens, step, first] using later

end

theorem ofTokens?_tokens (v : Value) : ofTokens? v.tokens = some v := by
  rw [ofTokens?, foldlM_tokens]
  rfl

/-! ### What is read is the tokens of a document -/

theorem itemTokens_append (items : List Value) (v : Value) :
    itemTokens (items ++ [v]) = items.flatMap (fun w => w.tokens ++ [.comma]) ++ v.tokens := by
  induction items with
  | nil => rfl
  | cons w items ih =>
    rw [List.cons_append, itemTokens, ih]
    · simp
    · simp

theorem memberTokens_append (members : List (Option String × Value)) (m : Option String × Value) :
    memberTokens (members ++ [m]) =
      members.flatMap (fun n => .text n.1 :: .colon :: (n.2.tokens ++ [.comma])) ++
        .text m.1 :: .colon :: m.2.tokens := by
  induction members with
  | nil => rfl
  | cons n members ih =>
    rw [List.cons_append, memberTokens, ih]
    · simp
    · simp

end Value

/-- The tokens of an object whose first members are read, each with a comma after it. -/
def openedObject (done : List (Option String × Value)) : List Token :=
  .openObject :: done.reverse.flatMap fun m => .text m.1 :: .colon :: (m.2.tokens ++ [.comma])

/-- The tokens of an open array or object up to the value that is being read. -/
def Frame.tokens : Frame → List Token
  | .array done => .openArray :: done.reverse.flatMap fun v => v.tokens ++ [.comma]
  | .object done name => openedObject done ++ [.text name, .colon]

/-- The tokens of all that is open; the innermost frame stands first on the stack. -/
def stackTokens : List Frame → List Token
  | [] => []
  | frame :: stack => stackTokens stack ++ frame.tokens

/-- The tokens that lead to a state. -/
def State.consumed : State → List Token
  | .value stack => stackTokens stack
  | .firstItem stack => stackTokens stack ++ [.openArray]
  | .firstName stack => stackTokens stack ++ [.openObject]
  | .name done stack => stackTokens stack ++ openedObject done
  | .colon done key stack => stackTokens stack ++ openedObject done ++ [.text key]
  | .complete v stack => stackTokens stack ++ v.tokens

theorem consumed_begin {stack : List Frame} {t : Token} {s : State}
    (begun : begin stack t = some s) : s.consumed = stackTokens stack ++ [t] := by
  unfold begin at begun
  split at begun
  case h_7 => contradiction
  all_goals
    obtain rfl := Option.some.inj begun
    rfl

/-- A step consumes its token. -/
theorem consumed_step {s s' : State} {t : Token} (stepped : step s t = some s') :
    s'.consumed = s.consumed ++ [t] := by
  unfold step at stepped
  split at stepped
  case h_1 => exact consumed_begin stepped
  case h_3 => exact consumed_begin stepped
  case h_12 => contradiction
  all_goals obtain rfl := Option.some.inj stepped
  case h_2 | h_4 => simp [State.consumed, Value.tokens, Value.itemTokens, Value.memberTokens]
  case h_5 | h_6 => simp [State.consumed, openedObject]
  case h_7 | h_8 | h_10 => simp [State.consumed, stackTokens, Frame.tokens, openedObject]
  -- What closes an array or object makes a value of all that was read inside.
  case h_9 =>
    simp [State.consumed, stackTokens, Frame.tokens, Value.tokens, Value.itemTokens_append]
  case h_11 =>
    simp [State.consumed, stackTokens, Frame.tokens, openedObject, Value.tokens,
      Value.memberTokens_append]

theorem consumed_foldlM {s s' : State} {ts : List Token} (run : ts.foldlM step s = some s') :
    s'.consumed = s.consumed ++ ts := by
  induction ts generalizing s with
  | nil =>
    obtain rfl := Option.some.inj run
    exact (List.append_nil _).symm
  | cons t ts ih =>
    rw [List.foldlM_cons] at run
    obtain ⟨between, stepped, later⟩ := Option.bind_eq_some_iff.mp run
    rw [ih later, consumed_step stepped, List.append_assoc, List.singleton_append]

namespace Value

theorem ofTokens?_eq_some {ts : List Token} {v : Value} :
    ofTokens? ts = some v ↔ ts = v.tokens := by
  constructor
  · intro read
    obtain ⟨s, run, result⟩ := Option.bind_eq_some_iff.mp read
    have consumed := consumed_foldlM run
    unfold State.result? at result
    split at result
    · obtain rfl := Option.some.inj result
      exact consumed.symm
    · contradiction
  · rintro rfl
    exact ofTokens?_tokens v

/-- A document is read from just the texts that hold its tokens. -/
theorem parse?_eq_some {v : Value} {cs : List Char} :
    parse? cs = some v ↔ Rendered v.tokens cs := by
  rw [parse?, Option.bind_eq_some_iff, ← tokens?_eq_tokens]
  simp only [ofTokens?_eq_some]
  exact ⟨fun ⟨_, cut, same⟩ => same ▸ cut, fun cut => ⟨_, cut, rfl⟩⟩

/-- However its tokens are laid out, a document without fractions and exponents is read back. -/
theorem parse?_of_layout {v : Value} {cs : List Char} (layout : Layout v.tokens cs)
    (plain : ∀ t ∈ v.tokens, t.isPlain = true) : parse? cs = some v :=
  parse?_eq_some.mpr (layout.rendered plain)

end Value

end ScanSlot.Json
