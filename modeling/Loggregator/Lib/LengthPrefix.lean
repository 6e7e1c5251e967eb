import Loggregator.Lib.Bytes

/-!
# Messages with their length before them

A message after its length in four bytes, little-endian. A sequence of such messages can be read
back, when their lengths fit.
-/

namespace Loggregator.Lib.LengthPrefix

/-- `binary.LittleEndian.PutUint32`. -/
def putUint32 (x : UInt32) : GoString :=
  (List.range 4).map (fun i => UInt8.ofNat (x.toNat / 256 ^ i))

/-- `binary.LittleEndian.Uint32`. -/
def uint32 (bs : GoString) : UInt32 :=
  UInt32.ofNat (bs.foldr (fun b acc => b.toNat + 256 * acc) 0)

/-- A message and its length. -/
def pack (message : GoString) : GoString :=
  putUint32 (UInt32.ofNat message.length) ++ message

/-- Messages one after another. -/
def packAll (messages : List GoString) : GoString := messages.flatMap pack

/-- Read messages up to the end. -/
def unpack (s : GoString) : Option (List GoString) :=
  if s = [] then some []
  else if s.length < 4 then none
  else
    let length := (uint32 (s.take 4)).toNat
    let rest := s.drop 4
    if rest.length < length then none
    else (unpack (rest.drop length)).map (fun messages => rest.take length :: messages)
termination_by s.length
decreasing_by
  simp only [List.length_drop]
  omega

@[simp] theorem length_putUint32 (x : UInt32) : (putUint32 x).length = 4 := rfl

theorem uint32_putUint32 (x : UInt32) : uint32 (putUint32 x) = x := by
  have hx : x.toNat < 2 ^ 32 := x.toNat_lt
  apply UInt32.toNat_inj.mp
  simp only [uint32, putUint32, List.range, List.range.loop, List.map_cons, List.map_nil,
    List.foldr_cons, List.foldr_nil, UInt8.toNat_ofNat', UInt32.toNat_ofNat']
  omega

@[simp] theorem length_pack (message : GoString) :
    (pack message).length = 4 + message.length := by
  simp [pack]

theorem unpack_pack_append {message : GoString} (h : message.length < 2 ^ 32) (s : GoString) :
    unpack (pack message ++ s) = (unpack s).map (fun messages => message :: messages) := by
  have hlength : (pack message ++ s).length = 4 + message.length + s.length := by simp
  have hne : pack message ++ s ≠ [] := by
    intro heq
    rw [heq, List.length_nil] at hlength
    omega
  have htake : (pack message ++ s).take 4 = putUint32 (UInt32.ofNat message.length) := by
    rw [pack, List.append_assoc]
    exact List.take_left' (length_putUint32 _)
  have hdrop : (pack message ++ s).drop 4 = message ++ s := by
    rw [pack, List.append_assoc]
    exact List.drop_left' (length_putUint32 _)
  have hvalue : (uint32 (putUint32 (UInt32.ofNat message.length))).toNat = message.length := by
    rw [uint32_putUint32, UInt32.toNat_ofNat', Nat.mod_eq_of_lt h]
  rw [unpack, if_neg hne, if_neg (by omega)]
  simp only [htake, hdrop, hvalue, List.take_left, List.drop_left]
  rw [if_neg (by rw [List.length_append]; omega)]

/-- The messages are read back. -/
theorem unpack_packAll {messages : List GoString} (h : ∀ m ∈ messages, m.length < 2 ^ 32) :
    unpack (packAll messages) = some messages := by
  induction messages with
  | nil =>
    rw [unpack]
    rfl
  | cons m messages ih =>
    rw [packAll, List.flatMap_cons, unpack_pack_append (h m List.mem_cons_self)]
    rw [← packAll, ih (fun m' hm' => h m' (List.mem_cons_of_mem _ hm')), Option.map_some]

@[simp] theorem packAll_nil : packAll [] = [] := rfl

theorem packAll_concat (messages : List GoString) (m : GoString) :
    packAll (messages ++ [m]) = packAll messages ++ pack m := by
  simp [packAll]

/-- Every message takes at least the bytes of its length. -/
theorem length_le_packAll (messages : List GoString) :
    4 * messages.length ≤ (packAll messages).length := by
  induction messages with
  | nil => simp
  | cons m messages ih =>
    rw [packAll, List.flatMap_cons, ← packAll, List.length_append, length_pack, List.length_cons]
    omega

end Loggregator.Lib.LengthPrefix
