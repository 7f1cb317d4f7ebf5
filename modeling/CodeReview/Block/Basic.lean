import CodeReview.Text.Quoted

/-! # Blocks

    The approximate extent of a method or function: its name, its first and
    last line, counted from one, and the text in between. -/

namespace CodeReview

/-- The extent of a method or function. -/
structure Block where
  name : String
  startLine : Nat
  endLine : Nat
  body : Text
  start_pos : 1 ≤ startLine
  start_le_end : startLine ≤ endLine
deriving DecidableEq

/-- A span of lines that no block can have. -/
structure BlockSpanError where
  name : String
  startLine : Int
  endLine : Int

/-- The wording of the error. -/
def BlockSpanError.message (e : BlockSpanError) : String :=
  s!"Invalid block span {e.startLine}-{e.endLine} for {Text.quote e.name}"

namespace Block

/-- How many lines a block spans. -/
def lineCount (block : Block) : Nat := block.endLine - block.startLine + 1

/-- A block from a span that is yet to be checked. -/
def ofSpan (name : String) (startLine endLine : Int) (body : Text) :
    Except BlockSpanError Block :=
  if h : 1 ≤ startLine ∧ startLine ≤ endLine then
    .ok ⟨name, startLine.toNat, endLine.toNat, body, by omega, by omega⟩
  else .error ⟨name, startLine, endLine⟩

end Block

end CodeReview
