import Mathlib.Algebra.Order.Ring.Nat
import Mathlib.Data.List.Induction
import Mathlib.Data.List.TakeDrop
import Mathlib.Logic.Function.Basic

/-!
# `ldq.cpp`

The ring buffer of the driver: the thread of the sensor pushes packets, the thread of the
publisher pops them, and no lock is held. A packet is copied field by field, and every access
to the queue is a step of its own; the steps of the two threads come in any order. Accesses
are taken to be sequentially consistent. `pushed`, `popped` and `dropped` are the history of
the queue and no part of the code.
-/

namespace RtkLocalization
namespace LidarDataQueue

structure PointPacket (α : Type) where
  baseTime : ℕ
  points : List α

structure StoragePacket (α : Type) where
  baseTime : ℕ
  pointsNum : ℕ
  points : List α

/-- `wrap` is the range of `uint32_t`. -/
def wrap : ℕ := 4294967296

structure Queue (α : Type) where
  storagePacket : ℕ → StoragePacket α
  rdIdx : ℕ
  wrIdx : ℕ
  size : ℕ
  mask : ℕ

def isPowerOf2 (size : ℕ) : Bool := decide (size ≠ 0) && decide (size &&& (size - 1) = 0)

def roundupPowerOf2 (size : ℕ) : ℕ :=
  2 ^ ((List.range 32).find? fun i => decide (size ≤ 2 ^ i)).getD 31

section Program
variable {α : Type}

def initQueue (queueSize : ℕ) : Queue α :=
  let size := if isPowerOf2 queueSize then queueSize else roundupPowerOf2 queueSize
  ⟨fun _ => ⟨0, 0, []⟩, 0, 0, size, size - 1⟩

def queueUsedSize (q : Queue α) : ℕ := (q.wrIdx + wrap - q.rdIdx) % wrap

def queueIsFull (q : Queue α) : Bool := decide (q.mask < queueUsedSize q)

def queueIsEmpty (q : Queue α) : Bool := decide (q.rdIdx = q.wrIdx)

def write (q : Queue α) (f : StoragePacket α → StoragePacket α) : Queue α :=
  { q with
    storagePacket := Function.update q.storagePacket (q.wrIdx &&& q.mask)
      (f (q.storagePacket (q.wrIdx &&& q.mask))) }

def front (q : Queue α) : StoragePacket α := q.storagePacket (q.rdIdx &&& q.mask)

/-- What is left of `QueuePushAny`. -/
inductive Producer (α : Type) where
  | idle
  | baseTime (packet : PointPacket α)
  | pointsNum (packet : PointPacket α)
  | points (packet : PointPacket α)
  | update (packet : PointPacket α)

/-- What is left of `QueuePop`, and what it has read. -/
inductive Consumer (α : Type) where
  | idle
  | baseTime
  | pointsNum (baseTime : ℕ)
  | points (baseTime pointsNum : ℕ)
  | update (packet : StoragePacket α)

structure State (α : Type) where
  queue : Queue α
  producer : Producer α
  consumer : Consumer α
  pushed : List (PointPacket α)
  popped : List (StoragePacket α)
  dropped : List (PointPacket α)

inductive Action (α : Type) where
  | pushLidarData (packet : PointPacket α)
  | produce
  | consume

/-- `PushLidarData` up to the test of the queue. -/
def offer (s : State α) (packet : PointPacket α) : State α :=
  match s.producer with
  | .idle =>
    if queueIsFull s.queue then { s with dropped := s.dropped ++ [packet] }
    else { s with producer := .baseTime packet }
  | _ => s

def produce (s : State α) : State α :=
  match s.producer with
  | .idle => s
  | .baseTime packet =>
    { s with
      queue := write s.queue fun x => { x with baseTime := packet.baseTime }
      producer := .pointsNum packet }
  | .pointsNum packet =>
    { s with
      queue := write s.queue fun x => { x with pointsNum := packet.points.length }
      producer := .points packet }
  | .points packet =>
    { s with
      queue := write s.queue fun x => { x with points := packet.points }
      producer := .update packet }
  | .update packet =>
    { s with
      queue := { s.queue with wrIdx := (s.queue.wrIdx + 1) % wrap }
      producer := .idle
      pushed := s.pushed ++ [packet] }

def consume (s : State α) : State α :=
  match s.consumer with
  | .idle => if queueIsEmpty s.queue then s else { s with consumer := .baseTime }
  | .baseTime => { s with consumer := .pointsNum (front s.queue).baseTime }
  | .pointsNum baseTime => { s with consumer := .points baseTime (front s.queue).pointsNum }
  | .points baseTime pointsNum =>
    { s with
      consumer := .update ⟨baseTime, pointsNum, (front s.queue).points.take pointsNum⟩ }
  | .update packet =>
    { s with
      queue := { s.queue with rdIdx := (s.queue.rdIdx + 1) % wrap }
      consumer := .idle
      popped := s.popped ++ [packet] }

def step (s : State α) : Action α → State α
  | .pushLidarData packet => offer s packet
  | .produce => produce s
  | .consume => consume s

def initial (queueSize : ℕ) : State α := ⟨initQueue queueSize, .idle, .idle, [], [], []⟩

def run (queueSize : ℕ) (actions : List (Action α)) : State α :=
  actions.foldl step (initial queueSize)

end Program

/-! ### The indices -/

theorem size_initQueue {α : Type} {queueSize : ℕ} (h : queueSize < wrap) :
    ∃ k ≤ 31, (initQueue queueSize : Queue α).size = 2 ^ k := by
  unfold initQueue
  dsimp only
  split_ifs with hpower
  · unfold isPowerOf2 at hpower
    rw [Bool.and_eq_true, decide_eq_true_iff, decide_eq_true_iff] at hpower
    obtain ⟨k, rfl⟩ := Nat.ne_zero_and_sub_one_eq_zero_iff_isPowerOfTwo.mp hpower
    refine ⟨k, ?_, rfl⟩
    by_contra hk
    have : 2 ^ 32 ≤ 2 ^ k := Nat.pow_le_pow_right Nat.two_pos (by omega)
    unfold wrap at h
    omega
  · refine ⟨_, ?_, rfl⟩
    cases hfind : (List.range 32).find? fun i => decide (queueSize ≤ 2 ^ i) with
    | none => exact Nat.le_refl 31
    | some i =>
      have := List.mem_range.mp (List.mem_of_find?_eq_some hfind)
      change i ≤ 31
      omega

theorem slot_eq {k : ℕ} (hk : k ≤ 31) (i : ℕ) : i % wrap &&& (2 ^ k - 1) = i % 2 ^ k := by
  have hdvd : 2 ^ k ∣ wrap := by
    rw [show wrap = 2 ^ 32 from rfl]
    exact Nat.pow_dvd_pow 2 (by omega)
  rw [Nat.and_two_pow_sub_one_eq_mod, Nat.mod_mod_of_dvd _ hdvd]

theorem slot_ne {n i j : ℕ} (hij : i < j) (hji : j < i + n) : i % n ≠ j % n := by
  intro h
  have hdvd : n ∣ j - i := Nat.dvd_of_mod_eq_zero (Nat.sub_mod_eq_zero_of_mod_eq h.symm)
  have := Nat.le_of_dvd (by omega) hdvd
  omega

theorem used_eq {r w : ℕ} (hle : r ≤ w) (hlt : w < r + wrap) :
    (w % wrap + wrap - r % wrap) % wrap = w - r := by
  unfold wrap at *
  omega

theorem empty_iff {r w : ℕ} (hle : r ≤ w) (hlt : w < r + wrap) :
    r % wrap = w % wrap ↔ r = w := by
  unfold wrap at *
  omega

/-! ### The invariant -/

section Invariant
variable {α : Type}

def store (packet : PointPacket α) : StoragePacket α :=
  ⟨packet.baseTime, packet.points.length, packet.points⟩

/-- The slot at `wr_idx` as far as it is written; it is not one of those in use. -/
def Producer.Holds (free : Prop) (slot : StoragePacket α) : Producer α → Prop
  | .idle => True
  | .baseTime _ => free
  | .pointsNum packet => free ∧ slot.baseTime = packet.baseTime
  | .points packet =>
    free ∧ slot.baseTime = packet.baseTime ∧ slot.pointsNum = packet.points.length
  | .update packet => free ∧ slot = store packet

/-- What is read comes from the next packet. -/
def Consumer.Holds (next : Option (PointPacket α)) : Consumer α → Prop
  | .idle => True
  | .baseTime => ∃ packet, next = some packet
  | .pointsNum time => ∃ packet, next = some packet ∧ time = packet.baseTime
  | .points time num =>
    ∃ packet, next = some packet ∧ time = packet.baseTime ∧ num = packet.points.length
  | .update x => ∃ packet, next = some packet ∧ x = store packet

/-- A free slot stays free when the other thread pops. -/
theorem Producer.Holds.mono {free free' : Prop} {slot : StoragePacket α} {producer : Producer α}
    (h : producer.Holds free slot) (hfree : free → free') : producer.Holds free' slot := by
  cases producer with
  | idle => trivial
  | baseTime packet => exact hfree h
  | pointsNum packet => exact ⟨hfree h.1, h.2⟩
  | points packet => exact ⟨hfree h.1, h.2⟩
  | update packet => exact ⟨hfree h.1, h.2⟩

/-- The next packet stays what it is when the other thread pushes. -/
theorem Consumer.Holds.mono {next next' : Option (PointPacket α)} {consumer : Consumer α}
    (h : consumer.Holds next) (hnext : ∀ packet, next = some packet → next' = some packet) :
    consumer.Holds next' := by
  cases consumer with
  | idle => trivial
  | baseTime =>
    obtain ⟨packet, hp⟩ := h
    exact ⟨packet, hnext packet hp⟩
  | pointsNum time =>
    obtain ⟨packet, hp, hread⟩ := h
    exact ⟨packet, hnext packet hp, hread⟩
  | points time num =>
    obtain ⟨packet, hp, hread⟩ := h
    exact ⟨packet, hnext packet hp, hread⟩
  | update x =>
    obtain ⟨packet, hp, hread⟩ := h
    exact ⟨packet, hnext packet hp, hread⟩

structure Inv (k : ℕ) (s : State α) : Prop where
  mask : s.queue.mask = 2 ^ k - 1
  rd : s.queue.rdIdx = s.popped.length % wrap
  wr : s.queue.wrIdx = s.pushed.length % wrap
  order : s.popped.length ≤ s.pushed.length
  room : s.pushed.length ≤ s.popped.length + 2 ^ k
  history : s.popped = (s.pushed.take s.popped.length).map store
  slots : ∀ i packet, s.popped.length ≤ i → s.pushed[i]? = some packet →
    s.queue.storagePacket (i % 2 ^ k) = store packet
  producing : s.producer.Holds (s.pushed.length < s.popped.length + 2 ^ k)
    (s.queue.storagePacket (s.pushed.length % 2 ^ k))
  consuming : s.consumer.Holds s.pushed[s.popped.length]?

variable {k : ℕ} {s : State α}

theorem two_pow_lt_wrap (hk : k ≤ 31) : 2 ^ k < wrap :=
  Nat.pow_lt_pow_right (by omega) (by omega : k < 32)

theorem Inv.used (hk : k ≤ 31) (h : Inv k s) :
    queueUsedSize s.queue = s.pushed.length - s.popped.length := by
  have hlt := two_pow_lt_wrap hk
  have hroom := h.room
  rw [queueUsedSize, h.rd, h.wr]
  exact used_eq h.order (by omega)

theorem Inv.full_iff (hk : k ≤ 31) (h : Inv k s) :
    queueIsFull s.queue = true ↔ s.pushed.length = s.popped.length + 2 ^ k := by
  have hroom := h.room
  have hpos := Nat.two_pow_pos k
  rw [queueIsFull, decide_eq_true_iff, h.used hk, h.mask]
  omega

theorem Inv.empty_iff (hk : k ≤ 31) (h : Inv k s) :
    queueIsEmpty s.queue = true ↔ s.popped.length = s.pushed.length := by
  have hlt := two_pow_lt_wrap hk
  have hroom := h.room
  rw [queueIsEmpty, decide_eq_true_iff, h.rd, h.wr]
  exact LidarDataQueue.empty_iff h.order (by omega)

theorem Inv.write_slot (hk : k ≤ 31) (h : Inv k s) :
    s.queue.wrIdx &&& s.queue.mask = s.pushed.length % 2 ^ k := by
  rw [h.wr, h.mask, slot_eq hk]

theorem Inv.front_eq (hk : k ≤ 31) (h : Inv k s) {packet : PointPacket α}
    (hnext : s.pushed[s.popped.length]? = some packet) : front s.queue = store packet := by
  rw [front, h.rd, h.mask, slot_eq hk]
  exact h.slots _ _ (Nat.le_refl _) hnext

/-- A write to the free slot. -/
theorem Inv.write (hk : k ≤ 31) (h : Inv k s) (hfree : s.pushed.length < s.popped.length + 2 ^ k)
    (f : StoragePacket α → StoragePacket α) {producer : Producer α}
    (hproducer : producer.Holds (s.pushed.length < s.popped.length + 2 ^ k)
      (f (s.queue.storagePacket (s.pushed.length % 2 ^ k)))) :
    Inv k { s with queue := write s.queue f, producer := producer } where
  mask := h.mask
  rd := h.rd
  wr := h.wr
  order := h.order
  room := h.room
  history := h.history
  slots i packet hi hpacket := by
    have hlt : i < s.pushed.length := (List.getElem?_eq_some_iff.mp hpacket).1
    have hroom : s.pushed.length < i + 2 ^ k :=
      Nat.lt_of_lt_of_le hfree (Nat.add_le_add_right hi _)
    change Function.update _ (s.queue.wrIdx &&& s.queue.mask) _ _ = _
    rw [h.write_slot hk, Function.update_of_ne (slot_ne hlt hroom)]
    exact h.slots i packet hi hpacket
  producing := by
    change producer.Holds _ (Function.update s.queue.storagePacket
      (s.queue.wrIdx &&& s.queue.mask) (f (s.queue.storagePacket (s.queue.wrIdx &&& s.queue.mask)))
      (s.pushed.length % 2 ^ k))
    rw [h.write_slot hk, Function.update_self]
    exact hproducer
  consuming := h.consuming

theorem Inv.offer (hk : k ≤ 31) (h : Inv k s) (packet : PointPacket α) :
    Inv k (offer s packet) := by
  unfold LidarDataQueue.offer
  cases hproducer : s.producer with
  | idle =>
    dsimp only
    split_ifs with hfull
    · exact { h with producing := trivial }
    · refine { h with producing := ?_ }
      have hroom := h.room
      rw [h.full_iff hk] at hfull
      exact Nat.lt_of_le_of_ne hroom hfull
  | baseTime _ => exact h
  | pointsNum _ => exact h
  | points _ => exact h
  | update _ => exact h

theorem Inv.produce (hk : k ≤ 31) (h : Inv k s) : Inv k (produce s) := by
  have hproducing := h.producing
  unfold LidarDataQueue.produce
  cases hproducer : s.producer with
  | idle => exact h
  | baseTime packet =>
    rw [hproducer] at hproducing
    exact h.write hk hproducing _ ⟨hproducing, rfl⟩
  | pointsNum packet =>
    rw [hproducer] at hproducing
    exact h.write hk hproducing.1 _ ⟨hproducing.1, hproducing.2, rfl⟩
  | points packet =>
    rw [hproducer] at hproducing
    obtain ⟨hfree, hbase, hnum⟩ := hproducing
    refine h.write hk hfree _ ⟨hfree, ?_⟩
    rw [hbase, hnum]
    rfl
  | update packet =>
    rw [hproducer] at hproducing
    obtain ⟨hfree, hslot⟩ := hproducing
    have horder := h.order
    have hlength : (s.pushed ++ [packet]).length = s.pushed.length + 1 := List.length_append
    refine ⟨h.mask, h.rd, ?_, ?_, ?_, ?_, ?_, trivial, ?_⟩
    · change (s.queue.wrIdx + 1) % wrap = (s.pushed ++ [packet]).length % wrap
      rw [h.wr, hlength, Nat.mod_add_mod]
    · change s.popped.length ≤ (s.pushed ++ [packet]).length
      omega
    · change (s.pushed ++ [packet]).length ≤ s.popped.length + 2 ^ k
      omega
    · change s.popped = ((s.pushed ++ [packet]).take s.popped.length).map store
      rw [List.take_append_of_le_length horder]
      exact h.history
    · intro i packet' hi hpacket
      change (s.pushed ++ [packet])[i]? = some packet' at hpacket
      change s.queue.storagePacket (i % 2 ^ k) = store packet'
      rcases Nat.lt_or_ge i s.pushed.length with hlt | hge
      · rw [List.getElem?_append_left hlt] at hpacket
        exact h.slots i packet' hi hpacket
      · have hlast : i = s.pushed.length := by
          have := (List.getElem?_eq_some_iff.mp hpacket).1
          omega
        rw [hlast, List.getElem?_concat_length, Option.some.injEq] at hpacket
        rw [hlast, ← hpacket]
        exact hslot
    · refine h.consuming.mono fun packet' hp => ?_
      change (s.pushed ++ [packet])[s.popped.length]? = some packet'
      rw [List.getElem?_append_left (List.getElem?_eq_some_iff.mp hp).1]
      exact hp

theorem Inv.consume (hk : k ≤ 31) (h : Inv k s) : Inv k (consume s) := by
  have hconsuming := h.consuming
  unfold LidarDataQueue.consume
  cases hconsumer : s.consumer with
  | idle =>
    dsimp only
    split_ifs with hempty
    · exact h
    · refine { h with consuming := ?_ }
      rw [h.empty_iff hk] at hempty
      have hlt : s.popped.length < s.pushed.length := Nat.lt_of_le_of_ne h.order hempty
      exact ⟨_, List.getElem?_eq_getElem hlt⟩
  | baseTime =>
    rw [hconsumer] at hconsuming
    obtain ⟨packet, hp⟩ := hconsuming
    exact { h with consuming := ⟨packet, hp, by rw [h.front_eq hk hp]; rfl⟩ }
  | pointsNum _ =>
    rw [hconsumer] at hconsuming
    obtain ⟨packet, hp, hbase⟩ := hconsuming
    exact { h with consuming := ⟨packet, hp, hbase, by rw [h.front_eq hk hp]; rfl⟩ }
  | points _ _ =>
    rw [hconsumer] at hconsuming
    obtain ⟨packet, hp, hbase, hnum⟩ := hconsuming
    refine { h with consuming := ⟨packet, hp, ?_⟩ }
    rw [h.front_eq hk hp, hbase, hnum]
    exact congrArg _ (List.take_length)
  | update x =>
    rw [hconsumer] at hconsuming
    obtain ⟨packet, hp, rfl⟩ := hconsuming
    have hlt := (List.getElem?_eq_some_iff.mp hp).1
    have hroom := h.room
    have hlength : (s.popped ++ [store packet]).length = s.popped.length + 1 := List.length_append
    refine ⟨h.mask, ?_, h.wr, ?_, ?_, ?_, ?_, ?_, trivial⟩
    · change (s.queue.rdIdx + 1) % wrap = (s.popped ++ [store packet]).length % wrap
      rw [h.rd, hlength, Nat.mod_add_mod]
    · change (s.popped ++ [store packet]).length ≤ s.pushed.length
      omega
    · change s.pushed.length ≤ (s.popped ++ [store packet]).length + 2 ^ k
      omega
    · change s.popped ++ [store packet]
        = (s.pushed.take (s.popped ++ [store packet]).length).map store
      rw [hlength, List.take_add_one, hp, List.map_append, ← h.history]
      rfl
    · intro i packet' hi hpacket
      refine h.slots i packet' ?_ hpacket
      change (s.popped ++ [store packet]).length ≤ i at hi
      omega
    · refine h.producing.mono fun hfree => ?_
      change s.pushed.length < (s.popped ++ [store packet]).length + 2 ^ k
      omega

theorem inv_initial {queueSize : ℕ} (hsize : (initQueue queueSize : Queue α).size = 2 ^ k) :
    Inv k (initial queueSize : State α) where
  mask := congrArg (· - 1) hsize
  rd := rfl
  wr := rfl
  order := Nat.le_refl 0
  room := Nat.zero_le _
  history := rfl
  slots i packet _ h := by cases h
  producing := trivial
  consuming := trivial

theorem inv_run (hk : k ≤ 31) {queueSize : ℕ}
    (hsize : (initQueue queueSize : Queue α).size = 2 ^ k) (actions : List (Action α)) :
    Inv k (run queueSize actions) := by
  unfold run
  induction actions using List.reverseRecOn with
  | nil => exact inv_initial hsize
  | append_singleton actions action ih =>
    rw [List.foldl_append, List.foldl_cons, List.foldl_nil]
    cases action with
    | pushLidarData packet => exact ih.offer hk packet
    | produce => exact ih.produce hk
    | consume => exact ih.consume hk

def interleaved : List (Action ℕ) :=
  [.pushLidarData ⟨7, [1, 2]⟩, .produce, .consume, .produce, .produce, .produce,
    .pushLidarData ⟨8, [3]⟩, .consume]

end Invariant
end LidarDataQueue
end RtkLocalization
