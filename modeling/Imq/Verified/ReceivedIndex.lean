import Imq.Verified.Wire

/-! # The slots that a reply names

The loop of `Bootstrap` turns the keys of the reply into slot indices with
`stoi` and hands them to `AddNode` unchecked.

* `addMembersWith`, `recorded` — the loop with `AddNode` as a parameter, and with
  its calls of `AddNode` recorded;
* `forget_recorded` — recording them changes nothing;
* `staysInside_iff` — the replies on which the loop stays inside the table and
  rejects every other key.
-/

namespace Imq

/-- An exception, and not a step without a meaning. -/
def Exn.isThrown : Exn → Bool
  | undefined _ => false
  | _ => true

namespace Cluster

/-! ## The calls of `AddNode` -/

section

variable {σ : Type} (add : UInt32 → HostAndPort → EStateM Exn σ Unit)

def addAddressesWith (idx : UInt32) : List Json → EStateM Exn σ Unit
  | [] => pure ()
  | address :: rest => do
    let nodeStr ← Cpp.ofExcept address.getString
    let node ← Cpp.ofExcept (HostAndPort.fromString nodeStr)
    add idx node
    addAddressesWith idx rest

def addMembersWith : List (Except Exn String × Json) → EStateM Exn σ Unit
  | [] => pure ()
  | (key, value) :: rest => do
    let idx ← Cpp.ofExcept (key.bind Cpp.stoi)
    addAddressesWith add (UInt32.ofInt idx) value.elements
    addMembersWith rest

def bootstrapReplyWith (response : Json) : EStateM Exn σ Unit := do
  let nodes ← Cpp.ofExcept (response.elementAt "nodes")
  addMembersWith add nodes.items

end

/-- `AddNode(idx, ..)` on the table. -/
def addAt (idx : UInt32) (node : HostAndPort) : EStateM Exn Cluster Unit := do
  let cluster ← get
  set (← Cpp.ofExcept (cluster.addNodeAt idx node))

theorem addAddresses_eq (idx : UInt32) (addresses : List Json) :
    addAddresses idx addresses = addAddressesWith addAt idx addresses := by
  induction addresses with
  | nil => rfl
  | cons address rest ih => simp only [addAddresses, addAddressesWith, addAt, ih, bind_assoc]

theorem addMembers_eq (members : List (Except Exn String × Json)) :
    addMembers members = addMembersWith addAt members := by
  induction members with
  | nil => rfl
  | cons member rest ih => simp only [addMembers, addMembersWith, addAddresses_eq, ih]

theorem bootstrapReply_eq (response : Json) :
    bootstrapReply response = bootstrapReplyWith addAt response := by
  simp only [bootstrapReply, bootstrapReplyWith, addMembers_eq]

/-- A table, and the calls of `AddNode` so far. -/
abbrev Recorded := Cluster × List (UInt32 × HostAndPort)

/-- `AddNode(idx, ..)`, recorded before it is done. -/
def addRecorded (idx : UInt32) (node : HostAndPort) : EStateM Exn Recorded Unit := fun s =>
  match s.1.addNodeAt idx node with
  | .ok c => .ok () (c, s.2 ++ [(idx, node)])
  | .error e => .error e (s.1, s.2 ++ [(idx, node)])

def recorded (response : Json) (c : Cluster) : EStateM.Result Exn Recorded Unit :=
  (bootstrapReplyWith addRecorded response).run (c, [])

def forget {α : Type} : EStateM.Result Exn Recorded α → EStateM.Result Exn Cluster α
  | .ok a s => .ok a s.1
  | .error e s => .error e s.1

theorem forget_bind {α β : Type} {x : EStateM Exn Recorded α} {y : EStateM Exn Cluster α}
    {f : α → EStateM Exn Recorded β} {g : α → EStateM Exn Cluster β} {s : Recorded}
    (h : forget (x.run s) = y.run s.1) (rest : ∀ a s, forget ((f a).run s) = (g a).run s.1) :
    forget ((x >>= f).run s) = (y >>= g).run s.1 := by
  rw [EStateM.run_bind, EStateM.run_bind, ← h]
  cases x.run s with
  | ok a s' => exact rest a s'
  | error e s' => rfl

theorem forget_ofExcept {α : Type} (r : Except Exn α) (s : Recorded) :
    forget ((Cpp.ofExcept r).run s) = (Cpp.ofExcept r).run s.1 := by
  cases r <;> rfl

theorem forget_addRecorded (idx : UInt32) (node : HostAndPort) (s : Recorded) :
    forget ((addRecorded idx node).run s) = (addAt idx node).run s.1 := by
  show forget (match s.1.addNodeAt idx node with
    | .ok c => .ok () (c, s.2 ++ [(idx, node)])
    | .error e => .error e (s.1, s.2 ++ [(idx, node)])) = _
  rw [addAt, Cpp.run_bind_ok (EStateM.run_get ..)]
  cases s.1.addNodeAt idx node <;> rfl

theorem forget_addAddresses (idx : UInt32) (addresses : List Json) (s : Recorded) :
    forget ((addAddressesWith addRecorded idx addresses).run s) =
      (addAddressesWith addAt idx addresses).run s.1 := by
  induction addresses generalizing s with
  | nil => rfl
  | cons address rest ih =>
    apply forget_bind (forget_ofExcept _ s)
    intro nodeStr s
    apply forget_bind (forget_ofExcept _ s)
    intro node s
    apply forget_bind (forget_addRecorded idx node s)
    intro _ s
    exact ih s

theorem forget_addMembers (members : List (Except Exn String × Json)) (s : Recorded) :
    forget ((addMembersWith addRecorded members).run s) =
      (addMembersWith addAt members).run s.1 := by
  induction members generalizing s with
  | nil => rfl
  | cons member rest ih =>
    apply forget_bind (forget_ofExcept _ s)
    intro idx s
    apply forget_bind (forget_addAddresses _ _ s)
    intro _ s
    exact ih s

/-- Recording the calls changes nothing of what `Bootstrap` does. -/
theorem forget_recorded (response : Json) (c : Cluster) :
    forget (recorded response c) = (bootstrapReply response).run c := by
  rw [bootstrapReply_eq]
  apply forget_bind (forget_ofExcept _ (c, []))
  intro nodes s
  exact forget_addMembers nodes.items s

/-! ## Entries with one address each -/

/-- The entries of a reply, as `Bootstrap` visits them. -/
def itemsOf (entries : List (String × String)) : List (Except Exn String × Json) :=
  entries.map fun entry => (.ok entry.1, .string entry.2)

/-- The call of `AddNode` that an entry leads to. -/
def readEntry (entry : String × String) : Except Exn (UInt32 × HostAndPort) := do
  let idx ← Cpp.stoi entry.1
  let node ← HostAndPort.fromString entry.2
  return (UInt32.ofInt idx, node)

/-- The key is the decimal form of an index of the table. -/
def IndexKey (key : String) : Prop := ∃ i : Fin MAX_NUM_NODES, key = keyOf i

/-- Up to the first entry that cannot be read, every key is the decimal form of an
    index of the table. -/
def KeysInRange : List (String × String) → Prop
  | [] => True
  | entry :: rest =>
    match readEntry entry with
    | .error _ => True
    | .ok _ => IndexKey entry.1 ∧ KeysInRange rest

theorem keysInRange_of_error {entry : String × String} {rest : List (String × String)} {e : Exn}
    (h : readEntry entry = .error e) : KeysInRange (entry :: rest) := by
  simp [KeysInRange, h]

theorem keysInRange_of_ok {entry : String × String} {rest : List (String × String)}
    {call : UInt32 × HostAndPort} (h : readEntry entry = .ok call) :
    KeysInRange (entry :: rest) ↔ IndexKey entry.1 ∧ KeysInRange rest := by
  simp [KeysInRange, h]

theorem ofExcept_bind {σ α β : Type} (x : Except Exn α) (f : α → Except Exn β) :
    (Cpp.ofExcept (x >>= f) : EStateM Exn σ β) = (do
      let a ← Cpp.ofExcept x
      Cpp.ofExcept (f a)) := by
  cases x <;> rfl

/-- The loop reads an entry and calls `AddNode` with what it has read. -/
theorem addMembersWith_cons {σ : Type} (add : UInt32 → HostAndPort → EStateM Exn σ Unit)
    (entry : String × String) (rest : List (String × String)) :
    addMembersWith add (itemsOf (entry :: rest)) = (do
      let call ← Cpp.ofExcept (readEntry entry)
      add call.1 call.2
      addMembersWith add (itemsOf rest)) := by
  obtain ⟨key, address⟩ := entry
  have hpure : ∀ {α : Type} (a : α), (Cpp.ofExcept (pure a) : EStateM Exn σ α) = pure a :=
    fun _ => rfl
  have hstring : (Cpp.ofExcept (Json.string address).getString : EStateM Exn σ String) =
      pure address := rfl
  show (do
    let idx ← Cpp.ofExcept (Cpp.stoi key)
    addAddressesWith add (UInt32.ofInt idx) [.string address]
    addMembersWith add (itemsOf rest)) = _
  simp only [readEntry, addAddressesWith, ofExcept_bind, bind_assoc, hpure, hstring, pure_bind]

/-- The state after the entries, recorded. -/
def afterEntries (entries : List (String × String)) (s : Recorded) :
    EStateM.Result Exn Recorded Unit :=
  (addMembersWith addRecorded (itemsOf entries)).run s

theorem afterEntries_of_error {entry : String × String} {e : Exn} (h : readEntry entry = .error e)
    (rest : List (String × String)) (s : Recorded) :
    afterEntries (entry :: rest) s = .error e s := by
  rw [afterEntries, addMembersWith_cons, h]
  exact Cpp.run_bind_error (Cpp.run_ofExcept_error e s) _

theorem afterEntries_of_ok {entry : String × String} {call : UInt32 × HostAndPort}
    (h : readEntry entry = .ok call) (rest : List (String × String)) (s : Recorded) :
    afterEntries (entry :: rest) s =
      match s.1.addNodeAt call.1 call.2 with
      | .ok c => afterEntries rest (c, s.2 ++ [call])
      | .error e => .error e (s.1, s.2 ++ [call]) := by
  rw [afterEntries, addMembersWith_cons, h, Cpp.run_bind_ok (Cpp.run_ofExcept_ok call s)]
  cases hadd : s.1.addNodeAt call.1 call.2 with
  | ok c =>
    have hrun : (addRecorded call.1 call.2).run s = .ok () (c, s.2 ++ [call]) := by
      simp [addRecorded, EStateM.run, hadd]
    rw [Cpp.run_bind_ok hrun]
    rfl
  | error e =>
    have hrun : (addRecorded call.1 call.2).run s = .error e (s.1, s.2 ++ [call]) := by
      simp [addRecorded, EStateM.run, hadd]
    rw [Cpp.run_bind_error hrun]

/-- The calls that have been recorded stay recorded. -/
theorem recorded_prefix (entries : List (String × String)) (s : Recorded) :
    s.2 <+: (Cpp.stateOf (afterEntries entries s)).2 := by
  induction entries generalizing s with
  | nil => exact List.prefix_rfl
  | cons entry rest ih =>
    cases hread : readEntry entry with
    | error e =>
      rw [afterEntries_of_error hread]
      exact List.prefix_rfl
    | ok call =>
      rw [afterEntries_of_ok hread]
      cases s.1.addNodeAt call.1 call.2 with
      | error e => exact List.prefix_append _ _
      | ok c => exact (List.prefix_append _ _).trans (ih (c, s.2 ++ [call]))

/-! ## Keys -/

/-- An entry under the decimal form of an index names that slot. -/
theorem index_of_indexKey {entry : String × String} {call : UInt32 × HostAndPort}
    (key : IndexKey entry.1) (h : readEntry entry = .ok call) : call.1.toNat < MAX_NUM_NODES := by
  obtain ⟨i, hkey⟩ := key
  have hlt : i.val < 30 := i.isLt
  have hidx : Cpp.stoi entry.1 = .ok (i.val : Int) := by
    rw [hkey]
    exact Cpp.stoi_toString (by omega)
  simp only [readEntry, hidx, Cpp.ok_bind] at h
  cases hnode : HostAndPort.fromString entry.2 with
  | error e => simp [hnode, bind, Except.bind] at h
  | ok node =>
    simp only [hnode, Cpp.ok_bind, pure, Except.pure, Except.ok.injEq] at h
    rw [← h, toNat_ofInt_index]
    exact i.isLt

theorem afterEntries_of_indexKey {entry : String × String} {call : UInt32 × HostAndPort}
    (key : IndexKey entry.1) (h : readEntry entry = .ok call) (s : Recorded) :
    ∃ c, ∀ rest, afterEntries (entry :: rest) s = afterEntries rest (c, s.2 ++ [call]) := by
  have hadd : s.1.addNodeAt call.1 call.2 =
      .ok (s.1.setNode ⟨call.1.toNat, index_of_indexKey key h⟩ call.2) :=
    dif_pos (index_of_indexKey key h)
  refine ⟨s.1.setNode ⟨call.1.toNat, index_of_indexKey key h⟩ call.2, fun rest => ?_⟩
  rw [afterEntries_of_ok h, hadd]

theorem isThrown_stoi {s : String} {e : Exn} (h : Cpp.stoi s = .error e) : e.isThrown = true := by
  obtain rfl | rfl := Cpp.stoi_eq_error h
  · rfl
  · rfl

theorem isThrown_substr {s : String} {pos count : Nat} {e : Exn}
    (h : Cpp.substr s pos count = .error e) : e.isThrown = true := by
  unfold Cpp.substr at h
  split at h
  · cases h
    rfl
  · cases h

theorem isThrown_fromString {s : String} {e : Exn} (h : HostAndPort.fromString s = .error e) :
    e.isThrown = true := by
  simp only [HostAndPort.fromString, bind, Except.bind] at h
  split at h
  next hhost =>
    cases h
    exact isThrown_substr hhost
  next =>
    split at h
    next hport =>
      cases h
      exact isThrown_substr hport
    next =>
      split at h
      next hread =>
        cases h
        exact isThrown_stoi hread
      next => cases h

theorem isThrown_readEntry {entry : String × String} {e : Exn} (h : readEntry entry = .error e) :
    e.isThrown = true := by
  cases hkey : Cpp.stoi entry.1 with
  | error e' =>
    simp only [readEntry, hkey, bind, Except.bind, Except.error.injEq] at h
    exact h ▸ isThrown_stoi hkey
  | ok idx =>
    cases hnode : HostAndPort.fromString entry.2 with
    | error e' =>
      simp only [readEntry, hkey, hnode, bind, Except.bind, Except.error.injEq] at h
      exact h ▸ isThrown_fromString hnode
    | ok node => simp [readEntry, hkey, hnode, bind, Except.bind, pure, Except.pure] at h

/-! ## Inside the table -/

theorem calls_inside {entries : List (String × String)} (keys : KeysInRange entries) {s : Recorded}
    (inside : ∀ call ∈ s.2, call.1.toNat < MAX_NUM_NODES) :
    ∀ call ∈ (Cpp.stateOf (afterEntries entries s)).2, call.1.toNat < MAX_NUM_NODES := by
  induction entries generalizing s with
  | nil => exact inside
  | cons entry rest ih =>
    cases hread : readEntry entry with
    | error e =>
      rw [afterEntries_of_error hread]
      exact inside
    | ok call =>
      obtain ⟨key, hrest⟩ := (keysInRange_of_ok hread).mp keys
      obtain ⟨c, hstep⟩ := afterEntries_of_indexKey key hread s
      rw [hstep]
      apply ih hrest
      intro call' hcall
      simp only [List.mem_append, List.mem_singleton] at hcall
      obtain hold | rfl := hcall
      · exact inside call' hold
      · exact index_of_indexKey key hread

/-- An entry under another key is rejected: the loop ends there at the latest,
    with an exception and nothing more recorded or written. -/
def Rejects (entries : List (String × String)) (s : Recorded) : Prop :=
  ∀ before entry after, entries = before ++ entry :: after → ¬ IndexKey entry.1 →
    ∃ e, e.isThrown = true ∧
      afterEntries entries s = .error e (Cpp.stateOf (afterEntries before s))

theorem rejects_of_keysInRange {entries : List (String × String)} (keys : KeysInRange entries)
    (s : Recorded) : Rejects entries s := by
  rintro before entry after rfl other
  induction before generalizing s with
  | nil =>
    cases hread : readEntry entry with
    | error e => exact ⟨e, isThrown_readEntry hread, afterEntries_of_error hread after s⟩
    | ok call => exact absurd ((keysInRange_of_ok hread).mp keys).1 other
  | cons first before ih =>
    cases hread : readEntry first with
    | error e =>
      refine ⟨e, isThrown_readEntry hread, ?_⟩
      rw [afterEntries_of_error hread, List.cons_append, afterEntries_of_error hread]
      rfl
    | ok call =>
      obtain ⟨key, hrest⟩ := (keysInRange_of_ok hread).mp keys
      obtain ⟨c, hstep⟩ := afterEntries_of_indexKey key hread s
      rw [List.cons_append, hstep, hstep]
      exact ih (c, s.2 ++ [call]) hrest

theorem keysInRange_of_rejects {entries : List (String × String)} {s : Recorded}
    (h : Rejects entries s) : KeysInRange entries := by
  induction entries generalizing s with
  | nil => trivial
  | cons entry rest ih =>
    cases hread : readEntry entry with
    | error e => exact keysInRange_of_error hread
    | ok call =>
      have key : IndexKey entry.1 := by
        by_contra other
        obtain ⟨e, hthrown, hrun⟩ := h [] entry rest rfl other
        -- The call is recorded, so that the entry has not been rejected.
        have hstate : Cpp.stateOf (afterEntries (entry :: rest) s) = s := by
          rw [hrun]
          rfl
        have hcall : s.2 ++ [call] <+: (Cpp.stateOf (afterEntries (entry :: rest) s)).2 := by
          rw [afterEntries_of_ok hread]
          cases s.1.addNodeAt call.1 call.2 with
          | error e => exact List.prefix_rfl
          | ok c => exact recorded_prefix rest (c, s.2 ++ [call])
        rw [hstate] at hcall
        have hlen := hcall.length_le
        simp at hlen
      obtain ⟨c, hstep⟩ := afterEntries_of_indexKey key hread s
      refine (keysInRange_of_ok hread).mpr ⟨key, ih (s := (c, s.2 ++ [call])) ?_⟩
      intro before other after hsplit hkey
      obtain ⟨e, hthrown, hrun⟩ := h (entry :: before) other after (by rw [hsplit]; rfl) hkey
      rw [hstep, hstep] at hrun
      exact ⟨e, hthrown, hrun⟩

/-- On the entries of a reply, the loop of `Bootstrap` calls `AddNode` for slots of
    the table only, and rejects every key that is no index of it. -/
structure StaysInside (response : Json) (entries : List (String × String)) (c : Cluster) : Prop where
  inside : ∀ call ∈ (Cpp.stateOf (recorded response c)).2, call.1.toNat < MAX_NUM_NODES
  rejects : ∀ before entry after, entries = before ++ entry :: after → ¬ IndexKey entry.1 →
    ∃ e, e.isThrown = true ∧
      recorded response c = .error e (Cpp.stateOf (afterEntries before (c, [])))

/-- `Bootstrap` stays inside the table, and rejects every other key, exactly if the
    keys in front of the first entry that cannot be read are indices of it. -/
theorem staysInside_iff {response : Json} {entries : List (String × String)}
    (nodes : response.elementAt "nodes" =
      .ok (.object (entries.map fun entry => (entry.1, .string entry.2)))) (c : Cluster) :
    StaysInside response entries c ↔ KeysInRange entries := by
  have hrecorded : recorded response c = afterEntries entries (c, []) := by
    have hitems : (Json.object (entries.map fun entry => (entry.1, .string entry.2))).items =
        itemsOf entries := by
      simp [Json.items, itemsOf]
    rw [recorded, bootstrapReplyWith, nodes, Cpp.run_bind_ok (Cpp.run_ofExcept_ok _ _), hitems]
    rfl
  constructor
  · intro h
    have hrejects := h.rejects
    rw [hrecorded] at hrejects
    exact keysInRange_of_rejects hrejects
  · intro keys
    constructor
    · rw [hrecorded]
      exact calls_inside keys (by simp)
    · rw [hrecorded]
      exact rejects_of_keysInRange keys (c, [])

def oneMember : Json := .object [("nodes", .object [("0", .string "h:1")])]

theorem staysInside_oneMember :
    StaysInside oneMember [("0", "h:1")] (new.addNode ⟨"r", 1⟩) ↔ KeysInRange [("0", "h:1")] :=
  staysInside_iff (by rfl) (new.addNode ⟨"r", 1⟩)

/-- A reply with one slot too many. -/
def oneTooMany : Json := .object [("nodes", .object [("30", .string "h:1")])]

/-- `Bootstrap` writes behind the last slot. -/
theorem outside_slot :
    recorded oneTooMany new =
      .error (.undefined "nodes_[idx] outside the vector") (new, [(30, ⟨"h", 1⟩)]) := by
  rfl

end Cluster

end Imq
