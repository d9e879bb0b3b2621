import ObjectMarkup.Proofs.Document.NameTimeline

namespace ObjectMarkup

namespace Registry

/-- What changes names. -/
inductive Operation where
  | put (id : String) (value : Value)
  | bindInclude (id : String) (value : Value) (names : Registry)
  | remove (id : String)

namespace Operation

def id : Operation → String
  | .put id _ => id
  | .bindInclude id _ _ => id
  | .remove id => id

def value? : Operation → Option Value
  | .put _ value => some value
  | .bindInclude _ value _ => some value
  | .remove _ => none

/-- The registry that the operation hangs under the name. -/
def names? : Operation → Option Registry
  | .bindInclude _ _ names => some names
  | _ => none

def isPut : Operation → Bool
  | .put .. => true
  | _ => false

def run (r : Registry) : Operation → Registry
  | .put id value => r.put id value
  | .bindInclude id value names => r.bindInclude id value names
  | .remove id => r.remove id

/-- An operation decides what is bound to its own name and to no other. -/
theorem values_get?_run (op : Operation) (r : Registry) (id : String) :
    (op.run r).values.get? id = if op.id = id then op.value? else r.values.get? id := by
  cases op with
  | put => exact OrderedMap.get?_insert ..
  | bindInclude => exact OrderedMap.get?_insert ..
  | remove => exact OrderedMap.get?_erase ..

/-- A store leaves the registry under its name alone. -/
theorem child?_run (op : Operation) (r : Registry) (id : String) :
    (op.run r).child? id = if op.id = id ∧ op.isPut = false then op.names? else r.child? id := by
  cases op with
  | put => simp [run, Registry.put, child?, isPut]
  | bindInclude =>
    simp [run, Registry.bindInclude, child?, OrderedMap.get?_insert, isPut, Operation.id, names?]
  | remove => simp [run, Registry.remove, child?, OrderedMap.get?_erase, isPut, Operation.id, names?]

end Operation

def runAll (r : Registry) (ops : List Operation) : Registry :=
  ops.foldl (fun r op => op.run r) r

@[simp] theorem runAll_nil (r : Registry) : r.runAll [] = r := rfl

@[simp] theorem runAll_cons (r : Registry) (op : Operation) (ops : List Operation) :
    r.runAll (op :: ops) = (op.run r).runAll ops := rfl

theorem runAll_append (r : Registry) (ops more : List Operation) :
    r.runAll (ops ++ more) = (r.runAll ops).runAll more := List.foldl_append

def lastOf? (id : String) (ops : List Operation) : Option Operation :=
  (ops.filter fun op => op.id = id).getLast?

def lastHung? (id : String) (ops : List Operation) : Option Operation :=
  (ops.filter fun op => op.id = id ∧ op.isPut = false).getLast?

/-- Where some operations decide what is seen and the others leave it as it is, the last of those
that decide counts. -/
theorem seen_runAll {α : Type} (see : Registry → Option α) {decides : Operation → Bool}
    {answer : Operation → Option α}
    (step : ∀ op r, see (op.run r) = if decides op then answer op else see r)
    (r : Registry) (ops : List Operation) :
    see (r.runAll ops) = match (ops.filter decides).getLast? with
      | none => see r
      | some op => answer op := by
  induction ops generalizing r with
  | nil => rfl
  | cons op rest ih =>
    rw [runAll_cons, ih, step]
    cases hop : decides op with
    | false => simp [hop]
    | true => cases hlast : (rest.filter decides).getLast? <;> simp [hop, List.getLast?_cons, hlast]

theorem values_get?_runAll (r : Registry) (ops : List Operation) (id : String) :
    (r.runAll ops).values.get? id = match lastOf? id ops with
      | none => r.values.get? id
      | some op => op.value? :=
  seen_runAll (fun r => r.values.get? id)
    (fun op r => by simpa using op.values_get?_run r id) r ops

theorem child?_runAll (r : Registry) (ops : List Operation) (id : String) :
    (r.runAll ops).child? id = match lastHung? id ops with
      | none => r.child? id
      | some op => op.names? :=
  seen_runAll (fun r => r.child? id)
    (fun op r => by simpa using op.child?_run r id) r ops

theorem id_of_lastOf? {id : String} {ops : List Operation} {op : Operation}
    (h : lastOf? id ops = some op) : op.id = id :=
  of_decide_eq_true (List.mem_filter.mp (List.mem_of_getLast? h)).2

/-- If the last operation on a name is no store, it is also the last there that is none. -/
theorem lastHung?_eq {id : String} {ops : List Operation}
    (hput : ∀ op, lastOf? id ops = some op → op.isPut = false) :
    lastHung? id ops = lastOf? id ops := by
  have hfilter : (ops.filter fun op => op.id = id ∧ op.isPut = false) =
      (ops.filter fun op => op.id = id).filter fun op => op.isPut = false := by
    rw [List.filter_filter]
    congr 1
    funext op
    simp [Bool.and_comm]
  rw [lastHung?, hfilter]
  cases hlast : lastOf? id ops with
  | none =>
    have hnil := List.getLast?_eq_none_iff.mp hlast
    simp [hnil]
  | some op =>
    obtain ⟨before, hsplit⟩ := List.getLast?_eq_some_iff.mp hlast
    rw [hsplit, List.filter_append]
    simp [hput op hlast]

/-- An operation without later ones on its name is the last one there. -/
theorem lastOf?_of_split {before after : List Operation} {op : Operation}
    (hlast : ∀ later ∈ after, later.id ≠ op.id) :
    lastOf? op.id (before ++ op :: after) = some op := by
  have hnone : (after.filter fun later => later.id = op.id) = [] :=
    List.filter_eq_nil_iff.mpr fun later hlater => by simpa using hlast later hlater
  simp [lastOf?, hnone]

namespace Operation

theorem lookup_run_name (op : Operation) (r : Registry) (id : String) :
    (op.run r).lookup [id] = if op.id = id then op.value? else r.lookup [id] :=
  op.values_get?_run r id

theorem lookup_run_path (op : Operation) (r : Registry) (segment next : String)
    (rest : List String) :
    (op.run r).lookup (segment :: next :: rest) =
      if op.id = segment ∧ op.isPut = false then
        op.names?.bind fun names => names.lookup (next :: rest)
      else r.lookup (segment :: next :: rest) := by
  simp only [lookup, op.child?_run]
  split <;> rfl

theorem lookup_run_congr (op : Operation) {r r' : Registry} {path : List String}
    (h : r.lookup path = r'.lookup path) : (op.run r).lookup path = (op.run r').lookup path := by
  match path with
  | [] => rfl
  | [id] => rw [lookup_run_name, lookup_run_name, h]
  | segment :: next :: rest => rw [lookup_run_path, lookup_run_path, h]

/-- An operation on a name that is no part of a path changes no lookup along the path. -/
theorem lookup_run_of_not_mem {op : Operation} {path : List String} (h : op.id ∉ path)
    (r : Registry) : (op.run r).lookup path = r.lookup path := by
  match path with
  | [] => rfl
  | [id] => rw [lookup_run_name, if_neg (List.ne_of_not_mem_cons h)]
  | segment :: next :: rest =>
    have hne : op.id ≠ segment := List.ne_of_not_mem_cons h
    rw [lookup_run_path, if_neg fun own => hne own.1]

end Operation

/-- Lookups see the operations on names without dots alone: no part of a path has a dot. -/
theorem get?_runAll_filter (r : Registry) (ops : List Operation) (path : String) :
    (r.runAll ops).get? path =
      (r.runAll (ops.filter fun op => '.' ∉ op.id.toList)).get? path := by
  have hplain : ∀ segment ∈ Text.segments '.' path, '.' ∉ segment.toList := by
    intro segment hsegment
    obtain ⟨piece, hpiece, rfl⟩ := List.mem_map.mp hsegment
    simpa using Text.not_mem_of_mem_pieces hpiece
  unfold get?
  generalize Text.segments '.' path = segments at hplain
  -- the two runs start alike and drift apart in what no lookup sees
  suffices h : ∀ r r' : Registry, r.lookup segments = r'.lookup segments →
      (r.runAll ops).lookup segments =
        (r'.runAll (ops.filter fun op => '.' ∉ op.id.toList)).lookup segments from h r r rfl
  induction ops with
  | nil => exact fun r r' h => h
  | cons op rest ih =>
    intro r r' h
    by_cases hdot : '.' ∈ op.id.toList
    · have hmem : op.id ∉ segments := fun hmem => hplain _ hmem hdot
      have hrun : (op.run r).lookup segments = r'.lookup segments := by
        rw [Operation.lookup_run_of_not_mem hmem, h]
      simpa [hdot] using ih (op.run r) r' hrun
    · simpa [hdot] using ih (op.run r) (op.run r') (op.lookup_run_congr h)

end Registry

open Markup
open Registry (Operation)

/-- The operation of a command, if it does not stop the script. What it stores may depend on the
names that it finds. -/
def Command.operation? (names : Registry) : Command → Option Operation
  | .assign target value => some (.put target value)
  | .copy source target => some (.put target ((names.get? source).getD .null))
  | .remove target => some (.remove target)
  | .test source target => some (.put target (.boolean (names.contains source)))
  | .list target => some (.put target (.string (Text.join "," names.sortedIds)))
  | .fail _ => none

/-- The operations of commands in a row, up to the one that stops the script. -/
def Command.operations (names : Registry) : List Command → List Operation
  | [] => []
  | c :: rest =>
    match c.operation? names with
    | none => []
    | some op => op :: operations (op.run names) rest

theorem Command.run_ok {c : Command} {names names' : Registry} (h : c.run names = .ok names') :
    ∃ op, c.operation? names = some op ∧ op.run names = names' := by
  cases c with
  | fail e => cases h
  | _ => exact ⟨_, rfl, Except.ok.inj h⟩

theorem Command.runAll_ok {commands : List Command} {names names' : Registry}
    (h : Command.runAll names commands = .ok names') :
    names.runAll (Command.operations names commands) = names' := by
  induction commands generalizing names with
  | nil => exact Except.ok.inj h
  | cons c rest ih =>
    cases hc : c.run names with
    | error e => simp [runAll, hc] at h
    | ok next =>
      obtain ⟨op, hop, rfl⟩ := run_ok hc
      simp only [runAll, hc] at h
      simpa [operations, hop] using ih h

/-- The operations that a change to the names consists of. -/
def Naming.operations (names : Registry) : Naming → List Operation
  | .element id value => [.put id value]
  | .inclusion id root inner => [.bindInclude id root inner]
  | .script commands => Command.operations names commands

def Naming.allOperations (names : Registry) : List Naming → List Operation
  | [] => []
  | n :: rest => n.operations names ++ allOperations (names.runAll (n.operations names)) rest

theorem Naming.run_ok {n : Naming} {names names' : Registry} (h : n.run names = .ok names') :
    names.runAll (n.operations names) = names' := by
  cases n with
  | element id value => exact Except.ok.inj h
  | inclusion id root inner => exact Except.ok.inj h
  | script commands => exact Command.runAll_ok h

theorem Naming.runAll_ok {changes : List Naming} {names names' : Registry}
    (h : Naming.runAll names changes = .ok names') :
    names.runAll (Naming.allOperations names changes) = names' := by
  induction changes generalizing names with
  | nil => exact Except.ok.inj h
  | cons n rest ih =>
    rw [Naming.runAll, List.foldlM_cons] at h
    cases hn : n.run names with
    | error e =>
      rw [hn] at h
      cases h
    | ok next =>
      rw [hn] at h
      rw [allOperations, Registry.runAll_append, run_ok hn]
      exact ih h

/-- Names with the operations in a row that have made them of none, by themselves or by a moment of a
read. In the middle of a script those of the commands that have run count as well. -/
inductive Registry.MadeBy : Registry → List Operation → Prop
  | operations (ops : List Operation) : MadeBy (empty.runAll ops) ops
  | read {nested : Reader → String → Reading Document} {r : Reader} {source : List Char}
      {location : Option String} {s t : Session} {taken : List Delivery} {b : Builder}
      {ahead : List Signal} {ran : List Command} {names : Registry}
      (reached : Builder.Reached nested r source location s taken b t ahead)
      (ran_ok : Command.runAll b.names ran = .ok names) :
      MadeBy names (Naming.allOperations .empty (namings taken) ++ Command.operations b.names ran)

/-- However they were made, the names are what the operations make of none. -/
theorem Registry.MadeBy.eq {names : Registry} {ops : List Operation} (h : names.MadeBy ops) :
    names = empty.runAll ops := by
  cases h with
  | operations => rfl
  | read reached ran_ok =>
    rw [runAll_append, Naming.runAll_ok reached.runAll_namings, Command.runAll_ok ran_ok]

end ObjectMarkup
