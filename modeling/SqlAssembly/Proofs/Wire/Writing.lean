import SqlAssembly.Proofs.Wire.Octets

/-!
# What an encoder leaves behind

An encoder goes on behind the octets that are there, and may have written a part when it fails.

* `Writes` says that an encoder succeeds and what it puts behind the octets that are there; encoders
  one after another are put together by `Writes.bind`.
* `Refuses` says that an encoder fails and leaves the octets that are there as they were.
* `Writes.putArray`: an array is written as its header and its items, each one after its length.
-/

namespace SqlAssembly.Wire

variable {α β : Type}

/-- The encoder succeeds with `a`, and puts the octets behind those that are there. -/
def Writes (x : Encoder α) (a : α) (octets : List UInt8) : Prop :=
  ∀ out, x.run.run out = (.ok a, out ++ octets)

/-- The encoder fails, and the octets that are there stay as they were. -/
def Refuses (x : Encoder α) (fault : EncodeFault) : Prop :=
  ∀ out, x.run.run out = (.error fault, out)

/-- The octets of an array of one dimension, given those of its items. -/
def arrayOctets (element : Nat) (items : List (List UInt8)) : List UInt8 :=
  natOctets 4 1 ++ natOctets 4 0 ++ natOctets 4 element ++ natOctets 4 items.length ++
    natOctets 4 1 ++ items.flatMap fun item => natOctets 4 item.length ++ item

theorem run_bind_of_ok {x : Encoder α} {f : α → Encoder β} {a : α} {out out' : List UInt8}
    (h : x.run.run out = (.ok a, out')) : (x >>= f).run.run out = (f a).run.run out' := by
  rw [ExceptT.run_bind, StateT.run_bind, h]
  rfl

namespace Writes

variable {x : Encoder α} {a : α} {l m : List UInt8}

theorem pure (a : α) : Writes (Pure.pure a) a [] := fun out => by
  rw [List.append_nil]
  rfl

theorem put (octets : List UInt8) : Writes (put octets) () octets := fun _ => rfl

theorem bind {f : α → Encoder β} {b : β} (h : Writes x a l) (h' : Writes (f a) b m) :
    Writes (x >>= f) b (l ++ m) := by
  intro out
  rw [run_bind_of_ok (h out), h' (out ++ l), List.append_assoc]

theorem liftM {y : Except EncodeFault α} (h : y = .ok a) : Writes (liftM y : Encoder α) a [] := by
  subst h
  exact .pure a

/-- The length of what is written goes before it. -/
theorem putSized {x : Encoder Unit} (h : Writes x () l) :
    Writes (putSized x) () (natOctets 4 l.length ++ l) := by
  intro out
  have hzeros : (out ++ natOctets 4 0).length = out.length + 4 := by simp
  -- what there is when the place of the length is filled in
  have hlength : (out ++ natOctets 4 0 ++ l).length - (out.length + 4) = l.length := by
    rw [List.length_append, hzeros, Nat.add_sub_cancel_left]
  have htake : (out ++ natOctets 4 0 ++ l).take out.length = out := by
    rw [List.append_assoc, List.take_left]
  have hdrop : (out ++ natOctets 4 0 ++ l).drop (out.length + 4) = l := List.drop_left' hzeros
  have hbefore : (get : Encoder (List UInt8)).run.run out = (.ok out, out) := rfl
  rw [Wire.putSized, run_bind_of_ok hbefore, run_bind_of_ok (put _ out), run_bind_of_ok (h _)]
  show (Except.ok (), (out ++ natOctets 4 0 ++ l).take out.length ++
    natOctets 4 ((out ++ natOctets 4 0 ++ l).length - (out.length + 4)) ++
      (out ++ natOctets 4 0 ++ l).drop (out.length + 4)) = _
  rw [hlength, htake, hdrop, List.append_assoc]

/-- Items are written one after another. -/
theorem forM {ι : Type} {putItem : ι → Encoder Unit} {write : ι → List UInt8} {items : List ι}
    (h : ∀ i ∈ items, Writes (putItem i) () (write i)) :
    Writes (items.forM putItem) () (items.flatMap write) := by
  induction items with
  | nil => exact .pure ()
  | cons i items ih =>
    obtain ⟨hi, hitems⟩ := List.forall_mem_cons.1 h
    exact hi.bind (ih hitems)

theorem putArray {ι : Type} (element : Nat) {putItem : ι → Encoder Unit} {write : ι → List UInt8}
    {items : List ι} (h : ∀ i ∈ items, Writes (putItem i) () (write i)) :
    Writes (putArray element putItem items) () (arrayOctets element (items.map write)) := by
  have hitems : Writes (items.forM fun i => Wire.putSized (putItem i)) () _ :=
    forM fun i hi => (h i hi).putSized
  have hall : Writes (Wire.putArray element putItem items) () _ := (put _).bind ((put _).bind hitems)
  simpa [arrayOctets, List.flatMap_map] using hall

theorem present {x : Encoder Unit} (h : Writes x () l) : Writes (present x) .present l := by
  have hall : Writes (Wire.present x) .present (l ++ []) := h.bind (.pure Presence.present)
  rwa [List.append_nil] at hall

/-- What is written does not depend on what was there, so it is told by any run. -/
theorem unique (h : Writes x a l) (h' : Writes x a m) : l = m :=
  congrArg Prod.snd ((h []).symm.trans (h' []))

end Writes

namespace Refuses

variable {x : Encoder α} {fault : EncodeFault}

theorem bind (h : Refuses x fault) (f : α → Encoder β) : Refuses (x >>= f) fault := by
  intro out
  rw [ExceptT.run_bind, StateT.run_bind, h out]
  rfl

theorem present {x : Encoder Unit} (h : Refuses x fault) : Refuses (present x) fault :=
  h.bind _

theorem liftM {y : Except EncodeFault α} (h : y = .error fault) :
    Refuses (liftM y : Encoder α) fault := by
  subst h
  exact fun _ => rfl

end Refuses

end SqlAssembly.Wire
