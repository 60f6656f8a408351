import Cuckoo.Proofs.Bytes.Field

/-!
# Reading at a position

A reader may as well keep the whole input and a position in it. A request names a number of bytes; if so
many are behind the position they are taken, and the position moves on by that number. A buffer is written
at its end.

What a schedule of reads does is said by `Streams`, for a reader at any position: **the pieces read are
those that stand next to one another behind the position**, what remains is what they left, and **the read
that fails is the first for which too little remains**. One read is `Serves`; that schedules do what single
reads do is the induction of `streams_readAll`, over the schedule.
-/

set_option autoImplicit false

namespace Cuckoo.Bytes

/-! ## Requests and their pieces -/

/-- The field that these bytes hold. -/
def Kind.decode : Kind → (front : List UInt8) → Field
  | .int32, front => .int32 (UInt32.ofNat (ofBigEndian front)).toInt32
  | .int64, front => .int64 (UInt64.ofNat (ofBigEndian front)).toInt64
  | .word, front => .word (UInt64.ofNat (ofBigEndian front))

namespace Request

/-- The number of bytes that a request takes. -/
def size : Request → Nat
  | .field kind => kind.size
  | .raw count => count

/-- The answer to a request, made of the bytes that it took. -/
def piece : Request → (front : List UInt8) → Piece
  | .field kind, front => .field (kind.decode front)
  | .raw _, front => .raw front

/-- The number of bytes that a schedule takes. -/
def wanted : List Request → Nat
  | [] => 0
  | request :: requests => request.size + wanted requests

end Request

namespace Piece

/-- The request that a piece is an answer to. -/
def request : Piece → Request
  | .field value => .field value.kind
  | .raw bytes => .raw bytes.length

/-- The bytes of a piece: those that a field is written as, or those taken as they are. -/
def bytes : Piece → List UInt8
  | .field value => value.encode
  | .raw bytes => bytes

@[simp] theorem length_bytes (piece : Piece) : piece.bytes.length = piece.request.size := by
  cases piece with
  | field value => exact length_encode value
  | raw bytes => rfl

end Piece

theorem Kind.read_eq (kind : Kind) (bytes : List UInt8) :
    kind.read bytes =
      (take? kind.size bytes).map fun (front, rest) => (kind.decode front, rest) := by
  cases kind <;> exact Option.map_map ..

theorem Kind.read_encode (field : Field) (rest : List UInt8) :
    field.kind.read (field.encode ++ rest) = some (field, rest) := by
  cases field with
  | int32 value => rw [Field.kind, Kind.read, readInt32_encode, Option.map_some]
  | int64 value => rw [Field.kind, Kind.read, readInt64_encode, Option.map_some]
  | word value => rw [Field.kind, Kind.read, readWord_encode, Option.map_some]

theorem encode_decode {kind : Kind} {front : List UInt8} (size : front.length = kind.size) :
    (kind.decode front).encode = front := by
  have small : ofBigEndian front < 256 ^ kind.size := size ▸ ofBigEndian_lt front
  have back : bigEndian kind.size (ofBigEndian front) = front := size ▸ bigEndian_ofBigEndian front
  cases kind with
  | int32 => exact (encode_int32 small).trans back
  | int64 => exact (encode_int64 small).trans back
  | word => exact (encode_word small).trans back

theorem kind_decode (kind : Kind) (front : List UInt8) : (kind.decode front).kind = kind := by
  cases kind <;> rfl

theorem Request.read_eq (request : Request) (bytes : List UInt8) :
    request.read bytes =
      (take? request.size bytes).map fun (front, rest) => (request.piece front, rest) := by
  cases request with
  | field kind =>
    rw [read, Kind.read_eq]
    exact Option.map_map ..
  | raw count => rfl

theorem Request.request_piece {request : Request} {front : List UInt8}
    (size : front.length = request.size) : (request.piece front).request = request := by
  cases request with
  | field kind => exact congrArg Request.field (kind_decode kind front)
  | raw count => exact congrArg Request.raw size

theorem Request.bytes_piece {request : Request} {front : List UInt8}
    (size : front.length = request.size) : (request.piece front).bytes = front := by
  cases request with
  | field kind => exact encode_decode size
  | raw count => rfl

/-! ## Cursors -/

/-- A place in the input, counted from its beginning. -/
structure Cursor where
  input : List UInt8
  position : Nat
  inside : position ≤ input.length

/-- What a schedule of reads came to: the pieces, each with the number of bytes that remained behind it,
the place reached, and the requests that are left, the first of which failed. -/
structure Reading where
  pieces : List (Piece × Nat)
  cursor : Cursor
  left : List Request

/-- The bytes that were read. -/
def Reading.bytes (reading : Reading) : List UInt8 := reading.pieces.flatMap (·.1.bytes)

namespace Cursor

def start (input : List UInt8) : Cursor := ⟨input, 0, Nat.zero_le _⟩

def remaining (c : Cursor) : Nat := c.input.length - c.position

/-- The bytes behind the position. -/
def rest (c : Cursor) : List UInt8 := c.input.drop c.position

def take? (c : Cursor) (count : Nat) : Option (List UInt8 × Cursor) :=
  if enough : c.position + count ≤ c.input.length then
    some (c.rest.take count, ⟨c.input, c.position + count, enough⟩)
  else none

def read (c : Cursor) (request : Request) : Option (Piece × Cursor) := do
  let (front, c) ← c.take? request.size
  pure (request.piece front, c)

/-- Carries out requests in turn, up to the first that fails. -/
def readAll (c : Cursor) : List Request → Reading
  | [] => ⟨[], c, []⟩
  | request :: requests =>
    match c.read request with
    | none => ⟨[], c, request :: requests⟩
    | some (piece, next) =>
      let reading := next.readAll requests
      { reading with pieces := (piece, next.remaining) :: reading.pieces }

end Cursor

@[simp] theorem Cursor.rest_start (input : List UInt8) : (Cursor.start input).rest = input := rfl

/-- The buffer after fields were written, each behind those before. -/
def written (fields : List Field) : List UInt8 :=
  fields.foldl (fun buffer field => buffer ++ field.encode) []

/-! ## One read -/

/-- What a read does that succeeds: it takes the bytes of a piece that answers the request. -/
structure Cursor.Serves (c : Cursor) (request : Request) (piece : Piece) (next : Cursor) : Prop where
  request_eq : piece.request = request
  input_eq : next.input = c.input
  position_eq : next.position = c.position + request.size
  rest_eq : c.rest = piece.bytes ++ next.rest

namespace Cursor

variable {c next : Cursor} {request : Request} {piece : Piece}

theorem length_rest (c : Cursor) : c.rest.length = c.remaining := List.length_drop

theorem Serves.remaining_eq (serves : c.Serves request piece next) :
    c.remaining = request.size + next.remaining := by
  rw [← length_rest, ← length_rest, serves.rest_eq, List.length_append, Piece.length_bytes,
    serves.request_eq]

/-- **A read fails only for want of bytes.** -/
theorem read_cases (c : Cursor) (request : Request) :
    (c.remaining < request.size ∧ c.read request = none) ∨
      ∃ piece next, c.read request = some (piece, next) ∧ c.Serves request piece next := by
  have inside := c.inside
  by_cases enough : c.position + request.size ≤ c.input.length
  · right
    have size : (c.rest.take request.size).length = request.size := by
      rw [List.length_take_of_le]
      rw [length_rest, remaining]
      omega
    refine ⟨_, ⟨c.input, c.position + request.size, enough⟩, ?_, Request.request_piece size, rfl, rfl,
      ?_⟩
    · rw [read, take?, dif_pos enough]
      rfl
    · rw [Request.bytes_piece size, rest, rest, ← List.drop_drop, List.take_append_drop]
  · left
    refine ⟨by unfold remaining; omega, ?_⟩
    rw [read, take?, dif_neg enough]
    rfl

/-- A read by position and one from the front give the same piece and leave the same bytes. -/
theorem read_rest (c : Cursor) (request : Request) :
    request.read c.rest = (c.read request).map fun (piece, next) => (piece, next.rest) := by
  have inside := c.inside
  rw [Request.read_eq, take?_eq, length_rest, read, take?, remaining]
  by_cases enough : c.position + request.size ≤ c.input.length
  · rw [if_pos (by omega), dif_pos enough, rest, List.drop_drop]
    rfl
  · rw [if_neg (by omega), dif_neg enough]
    rfl

end Cursor

/-! ## A schedule of reads -/

/-- What a schedule of reads does. -/
structure Cursor.Streams (c : Cursor) (requests : List Request) (reading : Reading) : Prop where
  /-- The pieces answer the first requests, in their order. -/
  asked : requests = reading.pieces.map (·.1.request) ++ reading.left
  input_eq : reading.cursor.input = c.input
  position_eq : reading.cursor.position = c.position + reading.bytes.length
  /-- The pieces stand next to one another, from the position on. -/
  rest_eq : c.rest = reading.bytes ++ reading.cursor.rest
  /-- After each read there remains what it and those before it have not taken. -/
  counted : ∀ before piece remaining after, reading.pieces = before ++ (piece, remaining) :: after →
    c.remaining = (before.flatMap (·.1.bytes)).length + piece.bytes.length + remaining
  remaining_eq : c.remaining = reading.bytes.length + reading.cursor.remaining
  /-- The first request that is left wants more than remains. -/
  stops : ∀ request later, reading.left = request :: later →
    reading.cursor.remaining < request.size
  /-- So many requests are answered as want no more than there is. -/
  answered_iff : ∀ n ≤ requests.length,
    n ≤ reading.pieces.length ↔ Request.wanted (requests.take n) ≤ c.remaining

namespace Cursor

section

variable {c next : Cursor} {request : Request} {requests : List Request} {piece : Piece}
  {reading : Reading}

/-- Nothing is read where nothing is asked for, or too much. -/
theorem Streams.stop (short : ∀ request later, requests = request :: later →
    c.remaining < request.size) : c.Streams requests ⟨[], c, requests⟩ where
  asked := rfl
  input_eq := rfl
  position_eq := rfl
  rest_eq := rfl
  counted := by simp
  remaining_eq := (Nat.zero_add _).symm
  stops := short
  answered_iff := by
    intro n le
    cases n with
    | zero => exact iff_of_true (Nat.le_refl 0) (Nat.zero_le _)
    | succ n =>
      cases requests with
      | nil => cases le
      | cons request later =>
        have wants := short request later rfl
        refine iff_of_false (Nat.not_succ_le_zero n) ?_
        rw [List.take_succ_cons, Request.wanted]
        omega

theorem Streams.cons (serves : c.Serves request piece next)
    (streams : next.Streams requests reading) : c.Streams (request :: requests)
      { reading with pieces := (piece, next.remaining) :: reading.pieces } := by
  have size : piece.bytes.length = request.size := by rw [Piece.length_bytes, serves.request_eq]
  have step := serves.remaining_eq
  have bytes : Reading.bytes { reading with pieces := (piece, next.remaining) :: reading.pieces } =
      piece.bytes ++ reading.bytes := List.flatMap_cons
  constructor
  case asked => rw [List.map_cons, serves.request_eq, List.cons_append, ← streams.asked]
  case input_eq => exact streams.input_eq.trans serves.input_eq
  case position_eq =>
    rw [bytes, List.length_append, size, ← Nat.add_assoc, ← serves.position_eq]
    exact streams.position_eq
  case rest_eq => rw [serves.rest_eq, streams.rest_eq, bytes, List.append_assoc]
  case counted =>
    intro before last remaining after split
    cases before with
    | nil =>
      cases split
      rw [step, ← size]
      simp
    | cons first before =>
      obtain ⟨rfl, behind⟩ := List.cons.inj split
      have later := streams.counted before last remaining after behind
      rw [List.flatMap_cons, List.length_append, size]
      omega
  case remaining_eq =>
    have later := streams.remaining_eq
    rw [bytes, List.length_append, size]
    show c.remaining = _ + reading.cursor.remaining
    omega
  case stops => exact streams.stops
  case answered_iff =>
    intro n le
    cases n with
    | zero => exact iff_of_true (Nat.zero_le _) (Nat.zero_le _)
    | succ n =>
      have later := streams.answered_iff n (Nat.le_of_succ_le_succ le)
      rw [List.take_succ_cons, Request.wanted, List.length_cons]
      omega

end

/-- **A schedule of reads takes piece after piece from the front, up to the first that too little
remains for.** -/
theorem streams_readAll (c : Cursor) (requests : List Request) :
    c.Streams requests (c.readAll requests) := by
  induction requests generalizing c with
  | nil => exact .stop nofun
  | cons request requests ih =>
    rw [readAll]
    rcases c.read_cases request with ⟨short, read⟩ | ⟨piece, next, read, serves⟩
    · rw [read]
      refine .stop ?_
      rintro _ _ ⟨⟩
      exact short
    · rw [read]
      exact .cons serves (ih next)

theorem readAll_rest (c : Cursor) (requests : List Request) :
    Bytes.readAll requests c.rest =
      ((c.readAll requests).pieces, (c.readAll requests).left.isEmpty) := by
  induction requests generalizing c with
  | nil => rfl
  | cons request requests ih =>
    rw [Bytes.readAll, read_rest, readAll]
    cases c.read request with
    | none => rfl
    | some served =>
      obtain ⟨piece, next⟩ := served
      dsimp only [Option.map_some]
      rw [ih next, length_rest]

/-- Fields that stand at the position are read as they are. -/
theorem readAll_encodeAll {fields : List Field} {trailing : List UInt8} : ∀ {c : Cursor},
    c.rest = Field.encodeAll fields ++ trailing →
    (c.readAll (fields.map fun field => .field field.kind)).pieces.map (·.1) = fields.map .field ∧
      (c.readAll (fields.map fun field => .field field.kind)).left = [] ∧
      (c.readAll (fields.map fun field => .field field.kind)).cursor.rest = trailing := by
  induction fields with
  | nil => exact fun ahead => ⟨rfl, rfl, ahead⟩
  | cons field fields ih =>
    intro c ahead
    rw [encodeAll_cons, List.append_assoc] at ahead
    have front := c.read_rest (.field field.kind)
    rw [ahead, Request.read, Kind.read_encode] at front
    obtain ⟨⟨piece, next⟩, read, same⟩ := Option.map_eq_some_iff.mp front.symm
    obtain ⟨rfl, behind⟩ := Prod.mk.inj same
    obtain ⟨pieces, left, rest⟩ := ih behind
    rw [List.map_cons, readAll, read]
    exact ⟨congrArg (Piece.field field :: ·) pieces, left, rest⟩

end Cursor

/-- A buffer that is written on keeps what it holds. -/
theorem foldl_encode (fields : List Field) (buffer : List UInt8) :
    fields.foldl (fun buffer field => buffer ++ field.encode) buffer =
      buffer ++ Field.encodeAll fields := by
  induction fields generalizing buffer with
  | nil => exact (List.append_nil buffer).symm
  | cons field fields ih => rw [List.foldl_cons, ih, encodeAll_cons, List.append_assoc]

/-- **Bytes are a faithful stream.** Fields that were written are read back, in their order and no byte
further, whatever is behind them. In whatever way bytes are read, pieces are taken one next to the other
from the front, up to the first read that too little remains for; and reading by position comes to the same
as reading from the front. -/
theorem faithful_stream :
    (∀ (fields : List Field) (trailing : List UInt8),
      let reading := (Cursor.start (written fields ++ trailing)).readAll
        (fields.map fun field => .field field.kind)
      reading.pieces.map (·.1) = fields.map .field ∧ reading.left = [] ∧
        reading.cursor.remaining = trailing.length) ∧
    ∀ (input : List UInt8) (requests : List Request),
      let reading := (Cursor.start input).readAll requests
      (Cursor.start input).Streams requests reading ∧
        readAll requests input = (reading.pieces, reading.left.isEmpty) := by
  refine ⟨fun fields trailing => ?_, fun input requests => ⟨?_, ?_⟩⟩
  · have buffer : written fields = Field.encodeAll fields := foldl_encode fields []
    rw [buffer]
    obtain ⟨pieces, left, rest⟩ :=
      Cursor.readAll_encodeAll (Cursor.rest_start (Field.encodeAll fields ++ trailing))
    refine ⟨pieces, left, ?_⟩
    rw [← Cursor.length_rest, rest]
  · exact Cursor.streams_readAll _ requests
  · exact Cursor.readAll_rest (.start input) requests

/-- Two bytes are too few for a number, and the read before it took none. -/
example :
    let reading := (Cursor.start [0xff, 0xff, 0xff, 0xfe, 7, 8, 9]).readAll
      [.field .int32, .raw 1, .raw 0, .field .int64, .raw 2]
    reading.pieces = [(.field (.int32 (-2)), 3), (.raw [7], 2), (.raw [], 2)] ∧
      reading.left = [.field .int64, .raw 2] := by decide

end Cuckoo.Bytes
