import SlotTable.Hash.Scheme
import SlotTable.Proofs.Hash.Fnv1a
import SlotTable.Proofs.Key.Feed

/-!
# A running hash tells no more than the bytes written

How bytes are cut into writes makes no difference to a running hash, and neither does copying: every
hash that a program holds is the one-shot hash of what was written into it, or into the hash that it
is a copy of before it was copied. The hash of a key is therefore the one-shot hash of its encoding.
-/
namespace SlotTable

/-- What a program does with its running hashes: it writes into one of them, or it copies one, and
the copy comes after all others. -/
inductive HashUse where
  | write (which : Nat) (bytes : Bytes)
  | copy (which : Nat)
  deriving DecidableEq, Repr

namespace HashUse

variable {A B : Type}

/-- One use of states of any kind that take bytes. -/
def apply (take : A → Bytes → A) (held : List A) : HashUse → List A
  | write which bytes => held.modify which fun state => take state bytes
  | copy which => held ++ held[which]?.toList

def run (take : A → Bytes → A) (held : List A) (uses : List HashUse) : List A :=
  uses.foldl (apply take) held

variable {take : A → Bytes → A} {takeView : B → Bytes → B} {view : A → B}

theorem apply_map (along : ∀ state bytes, view (take state bytes) = takeView (view state) bytes)
    (held : List A) (use : HashUse) :
    use.apply takeView (held.map view) = (use.apply take held).map view := by
  cases use with
  | write which bytes =>
    apply List.ext_getElem?
    intro index
    simp only [apply, List.getElem?_map, List.getElem?_modify]
    cases held[index]? with
    | none => rfl
    | some state => by_cases same : which = index <;> simp [same, along]
  | copy which =>
    simp only [apply, List.map_append, List.getElem?_map, Option.toList_map]

/-- Uses go along with every view of the states that taking bytes goes along with. -/
theorem run_map (along : ∀ state bytes, view (take state bytes) = takeView (view state) bytes)
    (held : List A) (uses : List HashUse) :
    run takeView (held.map view) uses = (run take held uses).map view := by
  induction uses generalizing held with
  | nil => rfl
  | cons use rest ih =>
    simp only [run, List.foldl_cons, apply_map along]
    exact ih (use.apply take held)

/-- Writes into one hash leave the others as they are. -/
theorem run_writes (held : List Fnv1a) (which : Nat) (chunks : List Bytes) :
    run Fnv1a.write held (chunks.map (write which)) =
      held.modify which fun hasher => hasher.writeAll chunks := by
  induction chunks generalizing held with
  | nil => exact (List.modify_id which held).symm
  | cons chunk rest ih =>
    simp only [List.map_cons, run, List.foldl_cons]
    rw [← run, ih, apply, List.modify_modify_eq]
    rfl

/-- Every hash is the one-shot hash of the bytes that it stands for. -/
theorem run_digest (uses : List HashUse) :
    (run Fnv1a.write [Fnv1a.start] uses).map Fnv1a.finish =
      (run (· ++ ·) [[]] uses).map Fnv1a.digest := by
  have states : run Fnv1a.write [Fnv1a.start] uses =
      (run (· ++ ·) [[]] uses).map Fnv1a.start.write :=
    run_map (Fnv1a.write_append Fnv1a.start) [[]] uses
  have views : Fnv1a.digest = Fnv1a.finish ∘ Fnv1a.start.write := funext Fnv1a.digest_eq_write
  rw [states, views, List.map_map]

/-- A copy goes on like the hash that it was made of. -/
theorem run_copy {held : List Fnv1a} {which : Nat} (inside : which < held.length)
    {chunks others : List Bytes} (same : chunks.flatten = others.flatten) :
    (run Fnv1a.write held (copy which :: chunks.map (write held.length)))[held.length]? =
      (run Fnv1a.write held (others.map (write which)))[which]? := by
  have copied : run Fnv1a.write held (copy which :: chunks.map (write held.length)) =
      run Fnv1a.write (held ++ [held[which]]) (chunks.map (write held.length)) := by
    simp [run, apply, inside]
  rw [copied, run_writes, run_writes, List.getElem?_modify_eq, List.getElem?_modify_eq]
  simp [inside, Fnv1a.writeAll_eq_write, same]

end HashUse

theorem ByteScheme.fnv1a_hashKey {K : Type} [Feed K] (key : K) :
    fnv1a.hashKey key = Fnv1a.digest (feed key) := by
  rw [hashKey, Fnv1a.writeAll_eq_write, Fnv1a.digest_eq_write]
  rfl

/-- The hash of a key is the one-shot hash of the encoding of its kind. -/
structure HashesEncodings : Prop where
  integer : ∀ (type : IntegerType) (n : FixedInt type), ∃ bytes : Bytes,
    bytes.length * 8 = type.bits ∧ Bytes.decode bytes = n.pattern.toNat ∧
      ByteScheme.fnv1a.hashKey n = Fnv1a.digest bytes
  text : ∀ text : String, ByteScheme.fnv1a.hashKey text =
    Fnv1a.digest (text.toUTF8.data.toList ++ [0xff])
  bytes : ∀ bytes : Bytes, ByteScheme.fnv1a.hashKey bytes =
    Fnv1a.digest (Bytes.encode 8 bytes.length ++ bytes)
  pair : ∀ (A B : Type) [Feed A] [Feed B] (first : A) (second : B),
    ByteScheme.fnv1a.hashKey (first, second) = Fnv1a.digest (feed first ++ feed second)
  absent : ∀ (A : Type) [Feed A], ByteScheme.fnv1a.hashKey (none : Option A) =
    Fnv1a.digest (Bytes.encode 8 0)
  present : ∀ (A : Type) [Feed A] (key : A), ByteScheme.fnv1a.hashKey (some key) =
    Fnv1a.digest (Bytes.encode 8 1 ++ feed key)
  list : ∀ (A : Type) [Feed A] (keys : List A), ByteScheme.fnv1a.hashKey keys =
    Fnv1a.digest (Bytes.encode 8 keys.length ++ keys.flatMap feed)

theorem hashesEncodings : HashesEncodings where
  integer type n := by
    obtain ⟨wide, value⟩ := feed_integer n
    exact ⟨feed n, wide, value, ByteScheme.fnv1a_hashKey n⟩
  text text := by rw [ByteScheme.fnv1a_hashKey, feed_text]
  bytes bytes := by rw [ByteScheme.fnv1a_hashKey, feed_bytes]
  pair A B _ _ first second := by rw [ByteScheme.fnv1a_hashKey, feed_pair]
  absent A _ := by rw [ByteScheme.fnv1a_hashKey, feed_none]
  present A _ key := by rw [ByteScheme.fnv1a_hashKey, feed_some]
  list A _ keys := by rw [ByteScheme.fnv1a_hashKey, feed_list]

/-- Whatever is written into a new hash, in any number of writes, its value is the one-shot hash of
all these bytes, and that is still so for each hash if some are copies of others. Two ways to cut a
string lead every state to the same one. A copy that takes some bytes comes to the state of the hash
it was made of if that takes the same bytes. The hash of a key of any kind is the one-shot hash of
the bytes that the key feeds. -/
theorem streaming_is_one_shot :
    (∀ chunks : List Bytes, (Fnv1a.start.writeAll chunks).finish = Fnv1a.digest chunks.flatten) ∧
    (∀ uses : List HashUse, (HashUse.run Fnv1a.write [Fnv1a.start] uses).map Fnv1a.finish =
      (HashUse.run (· ++ ·) [[]] uses).map Fnv1a.digest) ∧
    (∀ (hasher : Fnv1a) (chunks others : List Bytes), chunks.flatten = others.flatten →
      hasher.writeAll chunks = hasher.writeAll others) ∧
    (∀ (held : List Fnv1a) (which : Nat), which < held.length →
      ∀ chunks others : List Bytes, chunks.flatten = others.flatten →
        (HashUse.run Fnv1a.write held
          (.copy which :: chunks.map (.write held.length)))[held.length]? =
        (HashUse.run Fnv1a.write held (others.map (.write which)))[which]?) ∧
    (∀ (K : Type) [Feed K] (key : K),
      ByteScheme.fnv1a.hashKey key = Fnv1a.digest (feed key)) ∧
    HashesEncodings := by
  refine ⟨?_, HashUse.run_digest, ?_, ?_, ?_, hashesEncodings⟩
  · intro chunks
    rw [Fnv1a.writeAll_eq_write, Fnv1a.digest_eq_write]
  · intro hasher chunks others same
    rw [Fnv1a.writeAll_eq_write, Fnv1a.writeAll_eq_write, same]
  · intro held which inside chunks others same
    exact HashUse.run_copy inside same
  · intro K _ key
    exact ByteScheme.fnv1a_hashKey key

/-- The six letters of "foobar" in two writes and in four, and a copy that is made between the
writes: it ends with the hash of the six letters, and the first hash goes another way. -/
theorem streaming_is_one_shot_foobar :
    Fnv1a.start.writeAll [[102, 111, 111], [98, 97, 114]] =
      Fnv1a.start.writeAll [[], [102], [111, 111, 98, 97, 114], []] ∧
    Fnv1a.digest [102, 111, 111, 98, 97, 114] = 0x85944171f73967e8 ∧
    (HashUse.run Fnv1a.write [Fnv1a.start]
      [.write 0 [102, 111, 111], .copy 0, .write 1 [98, 97, 114], .write 0 [0]]).map
        Fnv1a.finish = [Fnv1a.digest [102, 111, 111, 0], 0x85944171f73967e8] ∧
    (HashUse.run Fnv1a.write [⟨0⟩, ⟨7⟩] [.copy 1, .write 2 [1], .write 2 [2, 3]])[2]? =
      (HashUse.run Fnv1a.write [⟨0⟩, ⟨7⟩] [.write 1 [1, 2], .write 1 [3]])[1]? := by
  obtain ⟨oneShot, uses, cut, copied, -⟩ := streaming_is_one_shot
  have foobar : Fnv1a.digest [102, 111, 111, 98, 97, 114] = 0x85944171f73967e8 :=
    (oneShot [[102, 111, 111], [98, 97, 114]]).symm.trans (by decide)
  refine ⟨cut _ _ _ rfl, foobar, (uses _).trans ?_, ?_⟩
  · exact congrArg (fun hash => [Fnv1a.digest [102, 111, 111, 0], hash]) foobar
  · exact copied [⟨0⟩, ⟨7⟩] 1 (by decide) [[1], [2, 3]] [[1, 2], [3]] rfl

end SlotTable
