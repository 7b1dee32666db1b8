import FloatCases.Report.Drawing

/-!
What a report says in words. Main statement: with or without colours, a report holds the code of the
fault, its reason with the token in quotes, and the help.
-/
namespace FloatCases

variable {colour : Bool} {p : Piece} {row : Report.Row} {c : Cause} {x : LineFault} {name s : Text}

/-- The token that a reason names. -/
def Cause.token : Cause → Text
  | malformedLiteral token | unknownMode token | unknownFlag token => token

theorem Cause.quoted_token_isInfix_message (c : Cause) :
    Text.quoted c.token <:+: c.message := by
  cases c <;> exact (List.suffix_append _ _).isInfix

theorem Piece.text_isInfix_render (colour : Bool) (p : Piece) : p.text <:+: p.render colour := by
  cases colour with
  | false => exact List.infix_rfl
  | true =>
    change p.text <:+: p.coloured
    unfold coloured
    split
    · exact List.infix_rfl
    · exact List.infix_append _ _ _

namespace Report

/-- The text of a piece stands in the report whatever the colours are. -/
theorem isInfix_render (hrow : row ∈ rows x name) (hp : p ∈ row) (hs : s <:+: p.text) :
    s <:+: render colour x name := by
  obtain ⟨a, b, hr⟩ := List.append_of_mem hrow
  obtain ⟨a', b', hq⟩ := List.append_of_mem hp
  have hpiece : s <:+: p.render colour := hs.trans (p.text_isInfix_render colour)
  have hin : p.render colour <:+: row.flatMap (Piece.render colour) ++ ['\n'] := by
    rw [hq, List.flatMap_append, List.flatMap_cons]
    exact ⟨a'.flatMap (Piece.render colour), b'.flatMap (Piece.render colour) ++ ['\n'], by simp⟩
  refine hpiece.trans (hin.trans ?_)
  rw [render, hr, List.flatMap_append, List.flatMap_cons]
  exact ⟨_, _, List.append_assoc _ _ _⟩

theorem titleRow_mem_rows (x : LineFault) (name : Text) :
    titleRow x.fault.cause ∈ rows x name := by
  simp [rows]

theorem helpRow_mem_rows (x : LineFault) (name : Text) :
    helpRow (Window.ofFault x.fault) x.fault.cause ∈ rows x name := by
  simp [rows]

/-- A report says what is wrong, with which token, and what would have been right. -/
theorem render_says (colour : Bool) (x : LineFault) (name : Text) :
    x.fault.cause.code <:+: render colour x name ∧
      x.fault.cause.message <:+: render colour x name ∧
      Text.quoted x.fault.cause.token <:+: render colour x name ∧
      x.fault.cause.help <:+: render colour x name := by
  have htitle := titleRow_mem_rows x name
  have hcode : x.fault.cause.code <:+: render colour x name :=
    isInfix_render htitle List.mem_cons_self (List.infix_append ['['] _ _)
  have hmessage : x.fault.cause.message <:+: render colour x name :=
    isInfix_render htitle (List.mem_cons_of_mem _ (List.mem_singleton_self _))
      (List.suffix_cons _ _).isInfix
  have hhelp : x.fault.cause.help <:+: render colour x name :=
    isInfix_render (helpRow_mem_rows x name)
      (List.mem_append_right _ (List.mem_cons_of_mem _ (List.mem_singleton_self _)))
      (List.suffix_append _ _).isInfix
  exact ⟨hcode, hmessage, x.fault.cause.quoted_token_isInfix_message.trans hmessage, hhelp⟩

theorem render_ne_nil (colour : Bool) (x : LineFault) (name : Text) :
    render colour x name ≠ [] := by
  intro hnil
  obtain ⟨-, -, hquoted, -⟩ := render_says colour x name
  rw [hnil] at hquoted
  exact List.cons_ne_nil _ _ (List.infix_nil.mp hquoted)

end Report
end FloatCases
