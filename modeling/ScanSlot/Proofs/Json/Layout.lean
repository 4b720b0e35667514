import ScanSlot.Proofs.Json.Rendering

/-! Tokens written in the usual way, with blanks wherever one likes. The compact and the pretty form
of a document are two layouts of its tokens. -/
namespace ScanSlot.Json

namespace Token

/-- Every number but those with a fraction or an exponent. -/
def isPlain : Token → Bool
  | number (.real ..) => false
  | _ => true

theorem spelled_written {t : Token} (plain : t.isPlain = true) : t.Spelled t.written := by
  cases t with
  | number n =>
    cases n with
    | integer n => exact .number (spelled_integerText n)
    | real => contradiction
  | text t => exact spelled_textWritten t
  | _ => exact .fixed rfl

end Token

/-- Tokens one after another, with any blanks before, between and after them. -/
inductive Layout : List Token → List Char → Prop where
  | nil : Layout [] []
  | blank {c : Char} {ts : List Token} {cs : List Char} (blank : isBlank c = true)
      (rest : Layout ts cs) : Layout ts (c :: cs)
  | token (t : Token) {ts : List Token} {cs : List Char} (rest : Layout ts cs) :
      Layout (t :: ts) (t.written ++ cs)

/-- However its tokens are laid out, a text holds them. -/
theorem Layout.rendered {ts : List Token} {cs : List Char} (layout : Layout ts cs)
    (plain : ∀ t ∈ ts, t.isPlain = true) : Rendered ts cs := by
  induction layout with
  | nil => exact .nil
  | blank blank _ ih => exact .blank blank (ih plain)
  | token t _ ih =>
    rw [List.forall_mem_cons] at plain
    exact .token (Token.spelled_written plain.1) (ih plain.2)

theorem blank_space : isBlank ' ' = true := rfl

theorem Layout.newLine {ts : List Token} {cs : List Char} (layout : Layout ts cs) (level : Nat) :
    Layout ts (Value.newLine level ++ cs) := by
  refine .blank rfl ?_
  induction 2 * level with
  | zero => exact layout
  | succ n ih =>
    rw [List.replicate_succ]
    exact .blank rfl ih

namespace Value

theorem layout_compact (ts : List Token) : Layout ts (ts.flatMap Token.written) := by
  induction ts with
  | nil => exact .nil
  | cons t ts ih => exact .token t ih

mutual

theorem layout_prettyAt (level : Nat) (v : Value) {ts : List Token} {cs : List Char}
    (rest : Layout ts cs) : Layout (v.tokens ++ ts) (v.prettyAt level ++ cs) := by
  cases v with
  | null | bool | number | text => exact .token _ rest
  | array items =>
    cases items with
    | nil => exact .token .openArray (.token .closeArray rest)
    | cons v items =>
      have inner := layout_prettyItems (level + 1) (v :: items)
        (Layout.newLine (.token .closeArray rest) level)
      simpa [tokens, prettyAt, Token.written] using Layout.token .openArray inner
  | object members =>
    cases members with
    | nil => exact .token .openObject (.token .closeObject rest)
    | cons m members =>
      have inner := layout_prettyMembers (level + 1) (m :: members)
        (Layout.newLine (.token .closeObject rest) level)
      simpa [tokens, prettyAt, Token.written] using Layout.token .openObject inner

theorem layout_prettyItems (level : Nat) (items : List Value) {ts : List Token} {cs : List Char}
    (rest : Layout ts cs) : Layout (itemTokens items ++ ts) (prettyItems level items ++ cs) := by
  match items with
  | [] => exact rest
  | [v] => simpa [itemTokens, prettyItems] using (layout_prettyAt level v rest).newLine level
  | v :: w :: items =>
    have later := layout_prettyItems level (w :: items) rest
    have first := (layout_prettyAt level v (.token .comma later)).newLine level
    simpa [itemTokens, prettyItems, Token.written] using first

theorem layout_prettyMembers (level : Nat) (members : List (Option String × Value))
    {ts : List Token} {cs : List Char} (rest : Layout ts cs) :
    Layout (memberTokens members ++ ts) (prettyMembers level members ++ cs) := by
  match members with
  | [] => exact rest
  | [(name, v)] =>
    have own := Layout.token .colon (.blank blank_space (layout_prettyAt level v rest))
    simpa [memberTokens, prettyMembers, Token.written] using
      (Layout.token (.text name) own).newLine level
  | (name, v) :: w :: members =>
    have later := layout_prettyMembers level (w :: members) rest
    have value := layout_prettyAt level v (.token .comma later)
    have own := Layout.token .colon (.blank blank_space value)
    simpa [memberTokens, prettyMembers, Token.written] using
      (Layout.token (.text name) own).newLine level

end

end Value

end ScanSlot.Json
