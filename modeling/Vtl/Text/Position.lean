namespace Vtl

/-- How many bytes a text takes in UTF-8. -/
def byteLength : List Char → Nat
  | [] => 0
  | c :: cs => c.utf8Size + byteLength cs

@[simp] theorem byteLength_nil : byteLength [] = 0 := rfl

@[simp] theorem byteLength_cons (c : Char) (cs : List Char) :
    byteLength (c :: cs) = c.utf8Size + byteLength cs := rfl

@[simp] theorem byteLength_append (cs ds : List Char) :
    byteLength (cs ++ ds) = byteLength cs + byteLength ds := by
  induction cs with
  | nil => simp
  | cons c cs ih => simp [ih, Nat.add_assoc]

/-- A place between two characters of a source text: the bytes before it, and its line and column,
both counted from one. A column is a character, and only a newline starts a line. -/
structure Position where
  offset : Nat
  line : Nat
  column : Nat
deriving DecidableEq

namespace Position

def start : Position := ⟨0, 1, 1⟩

def step (place : Position) (c : Char) : Position :=
  if c = '\n' then ⟨place.offset + c.utf8Size, place.line + 1, 1⟩
  else ⟨place.offset + c.utf8Size, place.line, place.column + 1⟩

/-- The place reached by passing over `cs`. -/
def after (place : Position) (cs : List Char) : Position := cs.foldl step place

@[simp] theorem after_nil (place : Position) : place.after [] = place := rfl

@[simp] theorem after_cons (place : Position) (c : Char) (cs : List Char) :
    place.after (c :: cs) = (place.step c).after cs := rfl

theorem after_append (place : Position) (cs ds : List Char) :
    place.after (cs ++ ds) = (place.after cs).after ds := by
  simp [after]

@[simp] theorem offset_step (place : Position) (c : Char) :
    (place.step c).offset = place.offset + c.utf8Size := by
  unfold step
  split <;> rfl

@[simp] theorem offset_after (place : Position) (cs : List Char) :
    (place.after cs).offset = place.offset + byteLength cs := by
  induction cs generalizing place with
  | nil => rfl
  | cons c cs ih => simp [ih, Nat.add_assoc]

end Position

/-- A stretch of source text: its first byte, the byte after its last, and the line and column at
which it starts. -/
structure Span where
  start : Nat
  stop : Nat
  line : Nat
  column : Nat
deriving DecidableEq

namespace Span

def between (first last : Position) : Span :=
  ⟨first.offset, last.offset, first.line, first.column⟩

/-- From the start of one span to the end of another. -/
def through (first last : Span) : Span := { first with stop := last.stop }

/-- Where the span starts, as messages say it. -/
def place (span : Span) : String := s!"line {span.line}, column {span.column}"

end Span

def dropBytes (count : Nat) : List Char → List Char
  | [] => []
  | c :: cs => if count = 0 then c :: cs else dropBytes (count - c.utf8Size) cs

def takeBytes (count : Nat) : List Char → List Char
  | [] => []
  | c :: cs => if count = 0 then [] else c :: takeBytes (count - c.utf8Size) cs

@[simp] theorem dropBytes_append (cs ds : List Char) :
    dropBytes (byteLength cs) (cs ++ ds) = ds := by
  induction cs with
  | nil => cases ds <;> simp [dropBytes]
  | cons c cs ih => simp [dropBytes, Nat.ne_of_gt c.utf8Size_pos, ih]

@[simp] theorem takeBytes_append (cs ds : List Char) :
    takeBytes (byteLength cs) (cs ++ ds) = cs := by
  induction cs with
  | nil => cases ds <;> simp [takeBytes]
  | cons c cs ih => simp [takeBytes, Nat.ne_of_gt c.utf8Size_pos, ih]

/-- The characters of `source` that a span covers. -/
def Span.slice (span : Span) (source : List Char) : List Char :=
  takeBytes (span.stop - span.start) (dropBytes span.start source)

/-- A span between the two ends of a part of the text covers exactly that part. -/
theorem Span.slice_between (before part rest : List Char) :
    (Span.between (Position.start.after before) (Position.start.after (before ++ part))).slice
      (before ++ part ++ rest) = part := by
  simp [Span.slice, Span.between, Position.start, List.append_assoc]

end Vtl
