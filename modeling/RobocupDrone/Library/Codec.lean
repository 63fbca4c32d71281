import Mathlib.Data.List.Flatten
import Mathlib.Data.Vector.Basic
import Mathlib.Tactic.Ring

/-! Little-endian words in memory, and decoders that read a buffer of fixed size from left to
right. -/

namespace Codec

/-- The lowest `k` bytes of a number, the least significant first. -/
def leBytes : Nat → Nat → List UInt8
  | 0, _ => []
  | k + 1, n => UInt8.ofNat n :: leBytes k (n / 256)

abbrev Buffer := Nat → UInt8

/-- The number in the `k` bytes from an offset on. -/
def leWord (buffer : Buffer) : Nat → Nat → Nat
  | _, 0 => 0
  | offset, k + 1 => (buffer offset).toNat + 256 * leWord buffer (offset + 1) k

def Holds (buffer : Buffer) : Nat → List UInt8 → Prop
  | _, [] => True
  | offset, byte :: bytes => buffer offset = byte ∧ Holds buffer (offset + 1) bytes

def place (bytes : List UInt8) (buffer : Buffer) : Buffer := fun i => bytes.getD i (buffer i)

def encodeWord {w : Nat} (value : BitVec w) : List UInt8 := leBytes (w / 8) value.toNat

def encodeVector {α : Type} (encode : α → List UInt8) (values : List α) : List UInt8 :=
  leBytes 8 values.length ++ values.flatMap encode

@[simp] theorem length_leBytes (k n : Nat) : (leBytes k n).length = k := by
  induction k generalizing n with
  | zero => rfl
  | succ k ih => simp [leBytes, ih]

@[simp] theorem length_encodeWord {w : Nat} (value : BitVec w) :
    (encodeWord value).length = w / 8 := length_leBytes _ _

theorem length_encodeVector {α : Type} (encode : α → List UInt8) (values : List α) :
    (encodeVector encode values).length =
      8 + (values.map fun value => (encode value).length).sum := by
  simp [encodeVector, List.length_flatMap]

theorem holds_append (buffer : Buffer) (offset : Nat) (front back : List UInt8) :
    Holds buffer offset (front ++ back) ↔
      Holds buffer offset front ∧ Holds buffer (offset + front.length) back := by
  induction front generalizing offset with
  | nil => simp [Holds]
  | cons byte front ih =>
      simp only [List.cons_append, Holds, ih, List.length_cons, and_assoc]
      rw [show offset + 1 + front.length = offset + (front.length + 1) by omega]

theorem leWord_of_holds {buffer : Buffer} {offset k n : Nat}
    (held : Holds buffer offset (leBytes k n)) : leWord buffer offset k = n % 256 ^ k := by
  induction k generalizing offset n with
  | zero => simp [leWord, Nat.mod_one]
  | succ k ih =>
      rw [leWord, held.1, ih held.2, pow_succ', Nat.mod_mul]
      simp

theorem holds_getElem {buffer : Buffer} {offset : Nat} {bytes : List UInt8}
    (stored : ∀ i (inside : i < bytes.length), buffer (offset + i) = bytes[i]) :
    Holds buffer offset bytes := by
  induction bytes generalizing offset with
  | nil => trivial
  | cons byte bytes ih =>
      constructor
      · exact stored 0 (by simp)
      · apply ih
        intro i inside
        have next := stored (i + 1) (by simpa using inside)
        rwa [show offset + (i + 1) = offset + 1 + i by omega] at next

theorem holds_place (bytes : List UInt8) (buffer : Buffer) :
    Holds (place bytes buffer) 0 bytes := by
  apply holds_getElem
  intro i inside
  simp [place, inside]

/-- Why a program stops while it decodes: an access outside the buffer, the request of a
vector longer than its type allows, or a conversion that throws. -/
inductive Fault
  | outOfBounds
  | lengthError
  | conversion
  deriving DecidableEq

/-- A decoded value, the offset behind it and the segments of the buffer read for it. -/
structure Reading (α : Type) where
  value : α
  stop : Nat
  reads : List (Nat × Nat)

/-- A decoder reads bytes between its start and the offset where it stops, within a buffer of
`size` bytes. -/
structure Decoder (size : Nat) (α : Type) where
  run : Buffer → Nat → Except Fault (Reading α)
  sequential : ∀ {buffer start reading}, run buffer start = .ok reading →
    start ≤ reading.stop ∧
      ∀ segment ∈ reading.reads, start ≤ segment.1 ∧ segment.2 ≤ reading.stop ∧
        segment.2 ≤ size

namespace Decoder

variable {size : Nat} {α β : Type}

protected def pure (value : α) : Decoder size α where
  run _ start := .ok ⟨value, start, []⟩
  sequential := by
    intro buffer start reading outcome
    cases outcome
    exact ⟨le_rfl, by simp⟩

def runBind (d : Decoder size α) (f : α → Decoder size β) (buffer : Buffer) (start : Nat) :
    Except Fault (Reading β) :=
  match d.run buffer start with
  | .error fault => .error fault
  | .ok first =>
      match (f first.value).run buffer first.stop with
      | .error fault => .error fault
      | .ok second => .ok ⟨second.value, second.stop, first.reads ++ second.reads⟩

theorem runBind_eq_ok {d : Decoder size α} {f : α → Decoder size β} {buffer : Buffer}
    {start : Nat} {reading : Reading β} :
    runBind d f buffer start = .ok reading ↔
      ∃ first, d.run buffer start = .ok first ∧
        ∃ second, (f first.value).run buffer first.stop = .ok second ∧
          reading = ⟨second.value, second.stop, first.reads ++ second.reads⟩ := by
  unfold runBind
  cases d.run buffer start with
  | error fault => simp
  | ok first =>
      cases next : (f first.value).run buffer first.stop with
      | error fault => simp [next]
      | ok second => simp [next, eq_comm]

protected def bind (d : Decoder size α) (f : α → Decoder size β) : Decoder size β where
  run := runBind d f
  sequential := by
    intro buffer start reading outcome
    obtain ⟨first, ran, second, continued, rfl⟩ := runBind_eq_ok.mp outcome
    have before := d.sequential ran
    have after := (f first.value).sequential continued
    refine ⟨before.1.trans after.1, fun segment member => ?_⟩
    rcases List.mem_append.mp member with early | late
    · have bounds := before.2 segment early
      exact ⟨bounds.1, bounds.2.1.trans after.1, bounds.2.2⟩
    · have bounds := after.2 segment late
      exact ⟨before.1.trans bounds.1, bounds.2.1, bounds.2.2⟩

instance : Monad (Decoder size) where
  pure := Decoder.pure
  bind := Decoder.bind

def skip (k : Nat) : Decoder size Unit where
  run _ start := .ok ⟨(), start + k, []⟩
  sequential := by
    intro buffer start reading outcome
    cases outcome
    exact ⟨Nat.le_add_right _ _, by simp⟩

/-- Read an unsigned word of `k` bytes. -/
def load (k : Nat) : Decoder size Nat where
  run buffer start :=
    if start + k ≤ size then .ok ⟨leWord buffer start k, start + k, [(start, start + k)]⟩
    else .error .outOfBounds
  sequential := by
    intro buffer start reading outcome
    split_ifs at outcome with inside
    cases outcome
    simpa using inside

def fetch (count : Nat) : Decoder size (List UInt8) where
  run buffer start :=
    if start + count ≤ size then
      .ok ⟨(List.range count).map fun i => buffer (start + i), start + count,
        [(start, start + count)]⟩
    else .error .outOfBounds
  sequential := by
    intro buffer start reading outcome
    split_ifs at outcome with inside
    cases outcome
    simpa using inside

def ofExcept (result : Except Fault α) : Decoder size α where
  run _ start :=
    match result with
    | .ok value => .ok ⟨value, start, []⟩
    | .error fault => .error fault
  sequential := by
    intro buffer start reading outcome
    cases result with
    | error fault => cases outcome
    | ok value =>
        cases outcome
        exact ⟨le_rfl, by simp⟩

def each (overwrite : α → Decoder size β) : List α → Decoder size (List β)
  | [] => pure []
  | old :: rest => do
      let value ← overwrite old
      let values ← each overwrite rest
      return value :: values

def array (overwrite : α → Decoder size β) :
    {n : Nat} → List.Vector α n → Decoder size (List.Vector β n)
  | 0, _ => pure List.Vector.nil
  | _ + 1, old => do
      let value ← overwrite old.head
      let values ← array overwrite old.tail
      return value ::ᵥ values

end Decoder

/-- `std::vector::resize` of a vector that cannot exceed `limit` elements. -/
def resize {α : Type} (limit : Nat) (fresh : α) (count : Nat) (old : List α) :
    Except Fault (List α) :=
  if count ≤ limit then .ok (old.take count ++ List.replicate (count - old.length) fresh)
  else .error .lengthError

theorem resize_length {α : Type} {limit count : Nat} {fresh : α} {old resized : List α}
    (outcome : resize limit fresh count old = .ok resized) : resized.length = count := by
  rw [resize] at outcome
  split_ifs at outcome with allowed
  rw [← Except.ok.inj outcome]
  simp only [List.length_append, List.length_take, List.length_replicate]
  omega

theorem resize_ok {α : Type} {limit count : Nat} (fresh : α) (old : List α)
    (allowed : count ≤ limit) :
    ∃ resized : List α, resize limit fresh count old = .ok resized ∧ resized.length = count := by
  have outcome : resize limit fresh count old = .ok _ := if_pos allowed
  exact ⟨_, outcome, resize_length outcome⟩

namespace Decoder

variable {size : Nat} {α β : Type}

def word (w : Nat) : Decoder size (BitVec w) := do
  let bits ← load (w / 8)
  return BitVec.ofNat w bits

/-- A string of at most `limit` characters, stored as its length in eight bytes followed by the
characters. -/
def string (limit : Nat) : Decoder size (List UInt8) := do
  let count ← load 8
  ofExcept (if count ≤ limit then .ok () else .error .lengthError)
  fetch count

def vector (limit : Nat) (fresh : α) (old : List α) (overwrite : α → Decoder size α) :
    Decoder size (List α) := do
  let count ← load 8
  let resized ← ofExcept (resize limit fresh count old)
  each overwrite resized

/-- The decoder ends without a fault, with a value and a final offset that satisfy `Q`. -/
def Runs (d : Decoder size α) (buffer : Buffer) (start : Nat) (Q : α → Nat → Prop) : Prop :=
  ∃ reading, d.run buffer start = .ok reading ∧ Q reading.value reading.stop

variable {buffer : Buffer} {start : Nat}

theorem Runs.mono {d : Decoder size α} {Q R : α → Nat → Prop} (runs : d.Runs buffer start Q)
    (weaker : ∀ value stop, Q value stop → R value stop) : d.Runs buffer start R := by
  obtain ⟨reading, outcome, holds⟩ := runs
  exact ⟨reading, outcome, weaker _ _ holds⟩

@[simp] theorem runs_pure {value : α} {Q : α → Nat → Prop} :
    (pure value : Decoder size α).Runs buffer start Q ↔ Q value start := by
  constructor
  · rintro ⟨reading, outcome, holds⟩
    cases outcome
    exact holds
  · exact fun holds => ⟨_, rfl, holds⟩

@[simp] theorem runs_bind {d : Decoder size α} {f : α → Decoder size β} {Q : β → Nat → Prop} :
    (d >>= f).Runs buffer start Q ↔
      d.Runs buffer start fun value stop => (f value).Runs buffer stop Q := by
  constructor
  · rintro ⟨reading, outcome, holds⟩
    obtain ⟨first, ran, second, continued, rfl⟩ := runBind_eq_ok.mp outcome
    exact ⟨first, ran, second, continued, holds⟩
  · rintro ⟨first, ran, second, continued, holds⟩
    exact ⟨_, runBind_eq_ok.mpr ⟨first, ran, second, continued, rfl⟩, holds⟩

@[simp] theorem runs_skip {k : Nat} {Q : Unit → Nat → Prop} :
    (skip k : Decoder size Unit).Runs buffer start Q ↔ Q () (start + k) := by
  constructor
  · rintro ⟨reading, outcome, holds⟩
    cases outcome
    exact holds
  · exact fun holds => ⟨_, rfl, holds⟩

@[simp] theorem runs_load {k : Nat} {Q : Nat → Nat → Prop} :
    (load k : Decoder size Nat).Runs buffer start Q ↔
      start + k ≤ size ∧ Q (leWord buffer start k) (start + k) := by
  simp only [Runs, load]
  split_ifs with inside
  · simp [inside]
  · simp [inside]

@[simp] theorem runs_fetch {count : Nat} {Q : List UInt8 → Nat → Prop} :
    (fetch count : Decoder size (List UInt8)).Runs buffer start Q ↔
      start + count ≤ size ∧
        Q ((List.range count).map fun i => buffer (start + i)) (start + count) := by
  simp only [Runs, fetch]
  split_ifs with inside
  · simp [inside]
  · simp [inside]

@[simp] theorem runs_ofExcept {result : Except Fault α} {Q : α → Nat → Prop} :
    (ofExcept result : Decoder size α).Runs buffer start Q ↔
      ∃ value, result = .ok value ∧ Q value start := by
  cases result with
  | error fault => simp [Runs, ofExcept]
  | ok value => simp [Runs, ofExcept]

/-- The decoder recovers the value wherever its bytes stand within the buffer, and stops
behind them. -/
def Decodes (d : Decoder size α) (bytes : List UInt8) (value : α) : Prop :=
  ∀ buffer start, Holds buffer start bytes → start + bytes.length ≤ size →
    d.Runs buffer start fun decoded stop => decoded = value ∧ stop = start + bytes.length

theorem decodes_pure (value : α) : (pure value : Decoder size α).Decodes [] value := by
  intro buffer start _ _
  simp

theorem Decodes.bind {d : Decoder size α} {f : α → Decoder size β} {front back : List UInt8}
    {value : α} {result : β} (first : d.Decodes front value)
    (next : (f value).Decodes back result) :
    (d >>= f).Decodes (front ++ back) result := by
  intro buffer start held inside
  rw [List.length_append] at inside
  have parts := (holds_append buffer start front back).mp held
  rw [runs_bind]
  apply (first buffer start parts.1 (by omega)).mono
  rintro _ _ ⟨rfl, rfl⟩
  apply (next buffer _ parts.2 (by omega)).mono
  rintro _ _ ⟨rfl, rfl⟩
  simp [add_assoc]

theorem Decodes.ofExcept_bind {f : α → Decoder size β} {bytes : List UInt8}
    {result : Except Fault α} {value : α} {decoded : β} (computed : result = .ok value)
    (next : (f value).Decodes bytes decoded) : (ofExcept result >>= f).Decodes bytes decoded := by
  intro buffer start held inside
  rw [runs_bind, runs_ofExcept]
  exact ⟨value, computed, next buffer start held inside⟩

theorem decodes_skip (bytes : List UInt8) {k : Nat} (width : bytes.length = k) :
    (skip k : Decoder size Unit).Decodes bytes () := by
  intro buffer start _ _
  simp [width]

theorem decodes_load {k n : Nat} (small : n < 256 ^ k) :
    (load k : Decoder size Nat).Decodes (leBytes k n) n := by
  intro buffer start held inside
  rw [length_leBytes] at inside
  rw [runs_load, leWord_of_holds held, Nat.mod_eq_of_lt small, length_leBytes]
  exact ⟨inside, rfl, rfl⟩

theorem decodes_word {w : Nat} (whole : w / 8 * 8 = w) (value : BitVec w) :
    (word w : Decoder size (BitVec w)).Decodes (encodeWord value) value := by
  have small : value.toNat < 256 ^ (w / 8) := by
    rw [show 256 = 2 ^ 8 from rfl, ← pow_mul, mul_comm, whole]
    exact value.isLt
  rw [← List.append_nil (encodeWord value)]
  apply (decodes_load small).bind
  rw [BitVec.ofNat_toNat, BitVec.setWidth_eq]
  exact decodes_pure value

theorem decodes_fetch (bytes : List UInt8) :
    (fetch bytes.length : Decoder size (List UInt8)).Decodes bytes bytes := by
  intro buffer start held inside
  rw [runs_fetch]
  refine ⟨inside, ?_, rfl⟩
  clear inside
  induction bytes generalizing start with
  | nil => rfl
  | cons byte bytes ih =>
      rw [List.length_cons, List.range_succ_eq_map, List.map_cons, List.map_map]
      have rest := ih (start + 1) held.2
      simp only [Nat.add_zero, held.1, Function.comp_def, Nat.succ_eq_add_one]
      rw [List.cons.injEq]
      refine ⟨rfl, ?_⟩
      simpa only [Nat.add_assoc, Nat.add_comm 1] using rest

theorem decodes_string {limit : Nat} {value : List UInt8} (allowed : value.length ≤ limit)
    (countable : limit < 256 ^ 8) :
    (string limit : Decoder size (List UInt8)).Decodes
      (leBytes 8 value.length ++ value) value := by
  apply (decodes_load (allowed.trans_lt countable)).bind
  exact .ofExcept_bind (if_pos allowed) (decodes_fetch value)

theorem decodes_each {overwrite : α → Decoder size β} {encode : β → List UInt8} {olds : List α}
    {values : List β} (same : olds.length = values.length)
    (element : ∀ old, ∀ value ∈ values, (overwrite old).Decodes (encode value) value) :
    (each overwrite olds).Decodes (values.flatMap encode) values := by
  induction values generalizing olds with
  | nil =>
      rw [List.length_eq_zero_iff.mp same]
      exact decodes_pure []
  | cons value values ih =>
      cases olds with
      | nil => simp at same
      | cons old olds =>
          have rest := ih (Nat.succ.inj same) fun old later member =>
            element old later (List.mem_cons_of_mem _ member)
          rw [List.flatMap_cons, ← List.append_nil (values.flatMap encode)]
          exact (element old value List.mem_cons_self).bind (rest.bind (decodes_pure _))

theorem decodes_array {overwrite : α → Decoder size β} {encode : β → List UInt8}
    (element : ∀ old value, (overwrite old).Decodes (encode value) value) :
    ∀ {n : Nat} (olds : List.Vector α n) (values : List.Vector β n),
      (array overwrite olds).Decodes (values.toList.flatMap encode) values
  | 0, olds, values => by
      rw [values.eq_nil]
      exact decodes_pure _
  | n + 1, olds, values => by
      have rest := decodes_array element olds.tail values.tail
      have first := element olds.head values.head
      rw [← values.cons_head_tail, List.Vector.toList_cons, List.flatMap_cons,
        ← List.append_nil (values.tail.toList.flatMap encode)]
      exact first.bind (rest.bind (decodes_pure _))

theorem decodes_vector {limit : Nat} {fresh : α} {old : List α} {overwrite : α → Decoder size α}
    {encode : α → List UInt8} {values : List α} (allowed : values.length ≤ limit)
    (countable : limit < 256 ^ 8)
    (element : ∀ old, ∀ value ∈ values, (overwrite old).Decodes (encode value) value) :
    (vector limit fresh old overwrite).Decodes (encodeVector encode values) values := by
  obtain ⟨resized, outcome, length⟩ := resize_ok fresh old allowed
  apply (decodes_load (allowed.trans_lt countable)).bind
  exact .ofExcept_bind outcome (decodes_each length element)

/-- The decoder ends without a fault exactly when `width` bytes are left, and stops behind
them. -/
def Fixed (d : Decoder size α) (width : Nat) : Prop :=
  ∃ value : Buffer → Nat → α, ∀ buffer start, start ≤ size → ∀ Q,
    d.Runs buffer start Q ↔ start + width ≤ size ∧ Q (value buffer start) (start + width)

theorem fixed_pure (value : α) : (pure value : Decoder size α).Fixed 0 := by
  refine ⟨fun _ _ => value, fun buffer start inside Q => ?_⟩
  simp [inside]

theorem fixed_word (w : Nat) : (word w : Decoder size (BitVec w)).Fixed (w / 8) := by
  refine ⟨fun buffer start => BitVec.ofNat w (leWord buffer start (w / 8)), ?_⟩
  intro buffer start _ Q
  simp [word]

theorem Fixed.bind {d : Decoder size α} {f : α → Decoder size β} {first second : Nat}
    (head : d.Fixed first) (tail : ∀ value, (f value).Fixed second) :
    (d >>= f).Fixed (second + first) := by
  obtain ⟨value, head⟩ := head
  choose result tail using tail
  refine ⟨fun buffer start => result (value buffer start) buffer (start + first), ?_⟩
  intro buffer start inside Q
  rw [runs_bind, head buffer start inside, Nat.add_comm second]
  constructor
  · rintro ⟨room, rest⟩
    rw [tail _ buffer _ room, add_assoc] at rest
    exact rest
  · rintro ⟨room, holds⟩
    have front : start + first ≤ size := by omega
    refine ⟨front, ?_⟩
    rw [tail _ buffer _ front, add_assoc]
    exact ⟨room, holds⟩

theorem fixed_each {overwrite : α → Decoder size β} {width : Nat}
    (element : ∀ old, (overwrite old).Fixed width) (olds : List α) :
    (each overwrite olds).Fixed (width * olds.length) := by
  induction olds with
  | nil => exact fixed_pure []
  | cons old olds ih =>
      have whole : width * (old :: olds).length = 0 + width * olds.length + width := by
        rw [List.length_cons]
        ring
      rw [whole]
      exact (element old).bind fun value => ih.bind fun values => fixed_pure (value :: values)

theorem fixed_array {overwrite : α → Decoder size β} {width : Nat}
    (element : ∀ old, (overwrite old).Fixed width) :
    ∀ {n : Nat} (olds : List.Vector α n), (array overwrite olds).Fixed (width * n)
  | 0, _ => fixed_pure _
  | n + 1, olds => by
      have whole : width * (n + 1) = 0 + width * n + width := by ring
      rw [whole]
      exact (element olds.head).bind fun value =>
        (fixed_array element olds.tail).bind fun values => fixed_pure (value ::ᵥ values)

theorem runs_each_length {overwrite : α → Decoder size β} {olds : List α} {buffer : Buffer}
    {start : Nat} {Q : List β → Nat → Prop} (runs : (each overwrite olds).Runs buffer start Q) :
    (each overwrite olds).Runs buffer start fun values stop =>
      values.length = olds.length ∧ Q values stop := by
  induction olds generalizing start Q with
  | nil => simpa [each] using runs
  | cons old olds ih =>
      simp only [each, runs_bind] at runs ⊢
      apply runs.mono
      intro value stop rest
      apply (ih rest).mono
      intro values stop rest
      simpa using rest

theorem runs_string (limit : Nat) (roomy : size ≤ limit) (buffer : Buffer) (start : Nat) :
    ∃ value : List UInt8, value.length = leWord buffer start 8 ∧ ∀ Q,
      (string limit : Decoder size (List UInt8)).Runs buffer start Q ↔
        start + 8 + leWord buffer start 8 ≤ size ∧
          Q value (start + 8 + leWord buffer start 8) := by
  let count := leWord buffer start 8
  refine ⟨(List.range count).map fun i => buffer (start + 8 + i), by simp [count], fun Q => ?_⟩
  simp only [string, runs_bind, runs_load, runs_ofExcept, runs_fetch]
  constructor
  · rintro ⟨-, -, -, room, holds⟩
    exact ⟨room, holds⟩
  · rintro ⟨room, holds⟩
    exact ⟨by omega, (), if_pos (by omega), room, holds⟩

theorem runs_vector (limit : Nat) {width : Nat} (fresh : α) (old : List α)
    {overwrite : α → Decoder size α} (element : ∀ old, (overwrite old).Fixed width)
    (positive : 0 < width) (roomy : size ≤ width * limit) (buffer : Buffer) (start : Nat) :
    ∃ values : List α, values.length = leWord buffer start 8 ∧ ∀ Q,
      (vector limit fresh old overwrite).Runs buffer start Q ↔
        start + 8 + width * leWord buffer start 8 ≤ size ∧
          Q values (start + 8 + width * leWord buffer start 8) := by
  by_cases room : start + 8 + width * leWord buffer start 8 ≤ size
  · have allowed : leWord buffer start 8 ≤ limit := by
      apply Nat.le_of_mul_le_mul_left _ positive
      omega
    obtain ⟨resized, outcome, length⟩ := resize_ok fresh old allowed
    obtain ⟨value, layout⟩ := fixed_each element resized
    have front : start + 8 ≤ size := by omega
    have each_iff : ∀ Q, (each overwrite resized).Runs buffer (start + 8) Q ↔
        start + 8 + width * leWord buffer start 8 ≤ size ∧
          Q (value buffer (start + 8)) (start + 8 + width * leWord buffer start 8) := by
      intro Q
      rw [layout buffer _ front, length]
    have counted := runs_each_length ((each_iff fun _ _ => True).mpr ⟨room, trivial⟩)
    have count := ((each_iff _).mp counted).2.1.trans length
    refine ⟨value buffer (start + 8), count, fun Q => ?_⟩
    rw [← each_iff]
    simp [vector, outcome, front]
  · refine ⟨List.replicate (leWord buffer start 8) fresh, List.length_replicate, fun Q => ?_⟩
    refine iff_of_false ?_ fun fits => room fits.1
    intro runs
    simp only [vector, runs_bind, runs_load, runs_ofExcept] at runs
    obtain ⟨front, resized, outcome, rest⟩ := runs
    obtain ⟨value, layout⟩ := fixed_each element resized
    have fits := ((layout buffer _ front _).mp rest).1
    rw [resize_length outcome] at fits
    exact room fits

/-- The decoder stops behind as many bytes as `len` gives its value. -/
def Measured (d : Decoder size α) (len : α → Nat) : Prop :=
  ∀ buffer start Q, d.Runs buffer start Q →
    d.Runs buffer start fun value stop => stop = start + len value ∧ Q value stop

theorem measured_each {overwrite : α → Decoder size β} {len : β → Nat}
    (element : ∀ old, (overwrite old).Measured len) (olds : List α) :
    (each overwrite olds).Measured fun values => (values.map len).sum := by
  induction olds with
  | nil =>
      intro buffer start Q runs
      simpa [each] using runs
  | cons old olds ih =>
      intro buffer start Q runs
      simp only [each, runs_bind] at runs ⊢
      apply (element old buffer start _ runs).mono
      rintro value _ ⟨rfl, rest⟩
      apply (ih buffer _ _ rest).mono
      rintro values _ ⟨rfl, rest⟩
      simpa [Nat.add_assoc] using rest

theorem measured_vector {limit : Nat} {fresh : α} {old : List α} {overwrite : α → Decoder size α}
    {len : α → Nat} (element : ∀ old, (overwrite old).Measured len) :
    (vector limit fresh old overwrite).Measured fun values => 8 + (values.map len).sum := by
  intro buffer start Q runs
  simp only [vector, runs_bind, runs_load, runs_ofExcept] at runs ⊢
  obtain ⟨room, resized, outcome, rest⟩ := runs
  refine ⟨room, resized, outcome, ?_⟩
  have whole := measured_each element resized buffer (start + 8) _ rest
  simpa only [Nat.add_assoc] using whole

end Decoder

end Codec
