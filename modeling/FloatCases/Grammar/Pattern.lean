import FloatCases.Text.Basic

/-!
Patterns of text with ordered choice and greedy repetition. A pattern either fails at a text or
matches one start of it; nothing that has matched is tried again in another way. The labelled parts
of what a pattern matches form a tree.
-/
namespace FloatCases

variable {ρ : Type}

/-- A labelled part of a text, with the byte at which it starts and the labelled parts inside it. -/
structure Tree (ρ : Type) where
  label : ρ
  start : Nat
  text : Text
  children : List (Tree ρ)

namespace Tree

/-- The byte at which a part ends. -/
def stop (t : Tree ρ) : Nat :=
  t.start + Text.byteSize t.text

/-- The first part with a label among those directly inside a part. -/
def child? [DecidableEq ρ] (t : Tree ρ) (label : ρ) : Option (Tree ρ) :=
  t.children.find? (·.label = label)

/-- The text of the first part with a label among those directly inside a part. -/
def textOf? [DecidableEq ρ] (t : Tree ρ) (label : ρ) : Option Text :=
  (t.child? label).map (·.text)

/-- Whether a part with a label is directly inside a part. -/
def has [DecidableEq ρ] (t : Tree ρ) (label : ρ) : Bool :=
  (t.child? label).isSome

end Tree

/-- What a pattern has matched, the labelled parts of it, and the text after it. -/
structure Match (ρ : Type) where
  consumed : Text
  trees : List (Tree ρ)
  rest : Text

namespace Match

/-- The match of nothing. -/
def nothing (s : Text) : Match ρ :=
  ⟨[], [], s⟩

/-- A match followed by one of the text after it. -/
def append (m n : Match ρ) : Match ρ :=
  ⟨m.consumed ++ n.consumed, m.trees ++ n.trees, n.rest⟩

/-- A match as one labelled part that starts at byte `start`, with given parts inside it. -/
def labelled (m : Match ρ) (label : ρ) (start : Nat) (children : List (Tree ρ)) : Match ρ :=
  ⟨m.consumed, [⟨label, start, m.consumed, children⟩], m.rest⟩

end Match

/-- A pattern whose labelled parts have labels in `ρ`. -/
inductive Pattern (ρ : Type) where
  /-- One character of a class. -/
  | char (accepts : Char → Bool)
  /-- A fixed text. -/
  | text (t : Text)
  /-- One pattern after another. -/
  | seq (p q : Pattern ρ)
  /-- The second pattern where the first fails. -/
  | alt (p q : Pattern ρ)
  /-- A pattern where it matches, otherwise nothing. -/
  | opt (p : Pattern ρ)
  /-- A pattern as often as it matches. -/
  | many (p : Pattern ρ)
  /-- A part with a label and the parts inside it. -/
  | node (label : ρ) (p : Pattern ρ)
  /-- A part with a label and no parts inside it. -/
  | token (label : ρ) (p : Pattern ρ)
  /-- The end of the text, as an empty part with a label. -/
  | finish (label : ρ)

namespace Pattern

instance : Append (Pattern ρ) where
  append := seq

instance : OrOp (Pattern ρ) where
  or := alt

/-- A pattern as often as it matches, and at least once. -/
def many1 (p : Pattern ρ) : Pattern ρ :=
  p ++ many p

/-- Takes a step over and over, at most `n` times, until it fails. -/
def iterate (step : Nat → Text → Option (Match ρ)) : Nat → Nat → Text → Match ρ
  | 0, _, s => .nothing s
  | n + 1, start, s =>
    match step start s with
    | none => .nothing s
    | some m => m.append (iterate step n (start + Text.byteSize m.consumed) m.rest)

/--
Matches a pattern at the head of a text that starts at byte `start`. A repeated pattern is meant to
consume at least one character each time, so that it matches at most as often as the text is long.
-/
def matchAt : Pattern ρ → Nat → Text → Option (Match ρ)
  | char _, _, [] => none
  | char accepts, _, c :: s => if accepts c then some ⟨[c], [], s⟩ else none
  | text t, _, s => if t.isPrefixOf s then some ⟨t, [], s.drop t.length⟩ else none
  | seq p q, start, s =>
    match p.matchAt start s with
    | none => none
    | some m => (q.matchAt (start + Text.byteSize m.consumed) m.rest).map m.append
  | alt p q, start, s =>
    match p.matchAt start s with
    | none => q.matchAt start s
    | some m => some m
  | opt p, start, s => some ((p.matchAt start s).getD (.nothing s))
  | many p, start, s => some (iterate p.matchAt s.length start s)
  | node label p, start, s => (p.matchAt start s).map fun m => m.labelled label start m.trees
  | token label p, start, s => (p.matchAt start s).map fun m => m.labelled label start []
  | finish label, start, s =>
    if s = [] then some ⟨[], [⟨label, start, [], []⟩], []⟩ else none

/-- The labelled parts of what a pattern matches at the start of a text. -/
def parse? (p : Pattern ρ) (s : Text) : Option (List (Tree ρ)) :=
  (p.matchAt 0 s).map (·.trees)

theorem matchAt_text (t r : Text) (n : Nat) :
    (text t : Pattern ρ).matchAt n (t ++ r) = some ⟨t, [], r⟩ := by
  simp [matchAt]

theorem matchAt_finish (label : ρ) (n : Nat) :
    (finish label).matchAt n [] = some ⟨[], [⟨label, n, [], []⟩], []⟩ := by
  simp [matchAt]

theorem iterate_none {step : Nat → Text → Option (Match ρ)} {n : Nat} {s : Text}
    (h : step n s = none) (k : Nat) : iterate step k n s = .nothing s := by
  cases k <;> simp [iterate, h]

theorem iterate_some {step : Nat → Text → Option (Match ρ)} {n : Nat} {s : Text} {m : Match ρ}
    (h : step n s = some m) (k : Nat) :
    iterate step (k + 1) n s =
      m.append (iterate step k (n + Text.byteSize m.consumed) m.rest) := by
  simp [iterate, h]

end Pattern
end FloatCases
