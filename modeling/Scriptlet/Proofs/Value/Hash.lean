/-
Hashes as finite maps.  A hash literal runs its pairs in the order they are
written and stores each of them in turn, so of pairs with equal keys the last
one counts.  A table is determined by what is found in it: pairs with different
keys make the same table in any order, and its text lists every key once, in the
order of keys.
-/
import Scriptlet.Proofs.Value.Equality
import Scriptlet.Proofs.Value.KeyOrder

namespace Scriptlet

namespace Table

variable {κ α : Type}

/-- The value of the last pair whose key passes a test. -/
def lastValue? (test : κ → Bool) (pairs : List (κ × α)) : Option α :=
  (pairs.reverse.find? fun pair => test pair.1).map Prod.snd

theorem lastValue?_cons (test : κ → Bool) (pair : κ × α)
    (pairs : List (κ × α)) :
    lastValue? test (pair :: pairs) =
      (lastValue? test pairs).or
      (if test pair.1 then some pair.2 else none) := by
  rw [lastValue?, lastValue?, List.reverse_cons, List.find?_append,
    List.find?_singleton]
  cases pairs.reverse.find? fun pair => test pair.1 with
  | some found => rfl
  | none => cases test pair.1 <;> rfl

theorem isSome_lastValue? (test : κ → Bool) (pairs : List (κ × α)) :
    (lastValue? test pairs).isSome ↔ ∃ pair ∈ pairs, test pair.1 = true := by
  rw [lastValue?, Option.isSome_map, List.find?_isSome]
  simp only [List.mem_reverse]

/-- Where keys are different, the last pair with a key is the only one. -/
theorem lastValue?_eq_some_iff {test : κ → Bool} {key : κ}
    (htest : ∀ k, test k = true ↔ k = key) {pairs : List (κ × α)}
    (hdistinct : pairs.Pairwise fun left right => left.1 ≠ right.1)
    {value : α} :
    lastValue? test pairs = some value ↔ (key, value) ∈ pairs := by
  induction pairs with
  | nil => simp [lastValue?]
  | cons pair pairs ih =>
      obtain ⟨hfirst, hrest⟩ := List.pairwise_cons.1 hdistinct
      rw [lastValue?_cons, Option.or_eq_some_iff, ih hrest, List.mem_cons]
      constructor
      · rintro (hmem | ⟨-, hpair⟩)
        · exact Or.inr hmem
        · obtain ⟨hkey, hvalue⟩ := Option.ite_none_right_eq_some.1 hpair
          exact Or.inl
            (Prod.ext ((htest pair.1).1 hkey).symm
              (Option.some.inj hvalue).symm)
      · rintro (rfl | hmem)
        · have hnone : lastValue? test pairs = none := by
            rw [← Option.not_isSome_iff_eq_none, isSome_lastValue?]
            rintro ⟨other, hother, hsame⟩
            exact hfirst other hother ((htest other.1).1 hsame).symm
          exact Or.inr ⟨hnone, if_pos ((htest key).2 rfl)⟩
        · exact Or.inl hmem

variable [Ord κ]

/-- Stores pairs in turn. -/
def insertAll (table : Table κ α) (pairs : List (κ × α)) : Table κ α :=
  pairs.foldl (fun table pair => table.insert pair.1 pair.2) table

variable [Std.LawfulEqOrd κ] {table left right : Table κ α}

theorem find?_insertAll (key : κ) (table : Table κ α)
    (pairs : List (κ × α)) : find? key (insertAll table pairs) =
      (lastValue? (fun k => compare key k == .eq) pairs).or
      (find? key table) := by
  induction pairs generalizing table with
  | nil => rfl
  | cons pair pairs ih =>
      rw [lastValue?_cons, Option.or_assoc]
      refine (ih _).trans (congrArg _ ?_)
      by_cases hkey : key = pair.1
      · subst hkey
        simp [find?_insert_self]
      · have hcompare : compare key pair.1 ≠ .eq :=
          fun h => hkey (Std.LawfulEqOrd.eq_of_compare h)
        simp [find?_insert_of_ne _ _ hkey, hcompare]

/-- In a table made from pairs, what is under a key was stored there last. -/
theorem find?_insertAll_nil (key : κ) (pairs : List (κ × α)) :
    find? key (insertAll [] pairs) =
      lastValue? (fun k => compare key k == .eq) pairs := by
  rw [find?_insertAll, find?, Option.or_none]

theorem Ascending.find?_eq_some_iff (h : table.Ascending) {key : κ}
    {value : α} : find? key table = some value ↔ (key, value) ∈ table := by
  induction table with
  | nil => simp [find?]
  | cons entry table ih =>
      obtain ⟨k, v⟩ := entry
      obtain ⟨hfirst, hrest⟩ := List.pairwise_cons.1 h
      rw [find?, List.mem_cons]
      by_cases hkey : compare key k = .eq
      · cases Std.LawfulEqOrd.eq_of_compare hkey
        rw [if_pos hkey, Option.some.injEq]
        constructor
        · rintro rfl
          exact Or.inl rfl
        · rintro (heq | hmem)
          · exact congrArg Prod.snd heq.symm
          · cases hkey.symm.trans (hfirst (key, value) hmem)
      · rw [if_neg hkey, ih hrest]
        constructor
        · exact Or.inr
        · rintro (heq | hmem)
          · cases heq
            exact absurd Std.ReflOrd.compare_self hkey
          · exact hmem

variable [Std.TransOrd κ]

theorem Ascending.insertAll (h : table.Ascending) (pairs : List (κ × α)) :
    (table.insertAll pairs).Ascending := by
  induction pairs generalizing table with
  | nil => exact h
  | cons pair pairs ih => exact ih (h.insert pair.1 pair.2)

/-- A table is determined by what is found in it. -/
theorem Ascending.ext (hleft : left.Ascending) (hright : right.Ascending)
    (h : ∀ key, find? key left = find? key right) : left = right := by
  have hdistinct {table : Table κ α} (h : table.Ascending) : table.Nodup := by
    refine h.imp fun {entry other} hlt heq => ?_
    cases heq
    cases Std.ReflOrd.compare_self.symm.trans hlt
  have hperm : left.Perm right := by
    rw [List.perm_ext_iff_of_nodup (hdistinct hleft) (hdistinct hright)]
    rintro ⟨key, value⟩
    rw [← hleft.find?_eq_some_iff, ← hright.find?_eq_some_iff, h]
  refine hperm.eq_of_pairwise (fun entry other _ _ hlt hgt => ?_) hleft hright
  cases (Std.OrientedCmp.gt_of_lt hlt).symm.trans hgt

theorem mem_keys_insertAll_iff {pairs : List (κ × α)} {key : κ} :
    key ∈ keys (insertAll [] pairs) ↔ key ∈ keys pairs := by
  have hascending : (insertAll [] pairs).Ascending :=
    Ascending.insertAll .nil pairs
  have hfound : key ∈ keys (insertAll [] pairs) ↔
      (find? key (insertAll [] pairs)).isSome := by
    rw [Option.isSome_iff_exists, keys, List.mem_map]
    constructor
    · rintro ⟨⟨_, value⟩, hmem, rfl⟩
      exact ⟨value, hascending.find?_eq_some_iff.2 hmem⟩
    · rintro ⟨value, hvalue⟩
      exact ⟨(key, value), hascending.find?_eq_some_iff.1 hvalue, rfl⟩
  rw [hfound, find?_insertAll_nil, isSome_lastValue?, keys, List.mem_map]
  simp only [beq_iff_eq, Std.compare_eq_iff_eq, eq_comm (a := key)]

/-- Pairs with different keys make the same table in any order. -/
theorem insertAll_eq_of_perm {pairs others : List (κ × α)}
    (hdistinct : pairs.Pairwise fun left right => left.1 ≠ right.1)
    (hperm : others.Perm pairs) : insertAll [] others = insertAll [] pairs := by
  have htest (key k : κ) : (compare key k == .eq) = true ↔ k = key := by
    rw [beq_iff_eq, Std.compare_eq_iff_eq, eq_comm]
  have hothers : others.Pairwise fun left right => left.1 ≠ right.1 :=
    hperm.symm.pairwise hdistinct Ne.symm
  refine Ascending.ext (Ascending.insertAll .nil others)
    (Ascending.insertAll .nil pairs) ?_
  intro key
  rw [find?_insertAll_nil, find?_insertAll_nil]
  refine Option.ext fun value => ?_
  rw [lastValue?_eq_some_iff (htest key) hothers,
    lastValue?_eq_some_iff (htest key) hdistinct, hperm.mem_iff]

end Table

namespace Value

/-- The hash that pairs make when they are stored in turn. -/
def ofPairs (pairs : List (HashKey × Value)) : Value :=
  .hash (Table.insertAll [] pairs)

theorem ofKey_beq_iff {key : HashKey} {w : Value} :
    (ofKey key == w) = true ↔ w.toKey = .ok key := by
  rw [beq_iff_coeval]
  constructor
  · intro h
    rw [← h.toKey_eq, toKey_ofKey]
  · intro h
    have hof : w = ofKey key := by
      cases w <;> cases h <;> rfl
    rw [hof]
    exact coeval_refl _

/-- What is under a key in a hash was stored there last. -/
theorem index_ofPairs (pairs : List (HashKey × Value)) (w : Value) :
    (ofPairs pairs).index w = if w.typeName ∈ [.integer, .boolean, .string] then
        .ok ((Table.lastValue? (ofKey · == w) pairs).getD .null)
      else .error (.unhashable w.typeName) := by
  have hfind (key : HashKey) (hw : w.toKey = .ok key) :
      (ofPairs pairs).index w =
        .ok ((Table.lastValue? (ofKey · == w) pairs).getD .null) := by
    have htest : (fun k => compare key k == .eq) = (ofKey · == w) := by
      funext k
      rw [Bool.eq_iff_iff, ofKey_beq_iff, hw, Except.ok.injEq, beq_iff_eq,
        Std.compare_eq_iff_eq]
    rw [ofPairs, index, hw, ← htest, ← Table.find?_insertAll_nil]
    rfl
  cases w with
  | integer n => exact hfind (.integer n) rfl
  | boolean b => exact hfind (.boolean b) rfl
  | string s => exact hfind (.string s) rfl
  | _ => rfl

theorem index_ofPairs_of_mem {pairs : List (HashKey × Value)}
    {entry : HashKey × Value} (h : entry ∈ Table.insertAll [] pairs) :
    (ofPairs pairs).index (ofKey entry.1) = .ok entry.2 := by
  have hfind := (Table.Ascending.insertAll .nil pairs).find?_eq_some_iff.2 h
  rw [ofPairs, index, toKey_ofKey]
  exact congrArg (fun value => Except.ok (Option.getD value .null)) hfind

theorem inspectEntries_eq_map (entries : List (HashKey × Value)) :
    inspectEntries entries = entries.map fun entry =>
      entry.1.text ++ ": " ++ entry.2.inspect := by
  induction entries with
  | nil => rfl
  | cons entry entries ih => rw [inspectEntries, ih, List.map_cons]

end Value

namespace Eval

/-- Pairs run to their keys and values in turn, a key before its value, and
nothing is on its way out. -/
inductive RunsTo (eval : Evaluator) (scope : ScopeId) :
    List (Expr × Expr) → Store → List (HashKey × Value) → Store → Prop
  | nil (store : Store) : RunsTo eval scope [] store [] store
  | cons {keyExpr valueExpr : Expr} {rest : List (Expr × Expr)}
      {store between later after : Store} {keyValue value : Value}
      {key : HashKey} {others : List (HashKey × Value)}
      (hkey : eval scope keyExpr store = .ok keyValue between)
      (htoKey : keyValue.toKey = .ok key)
      (hvalue : eval scope valueExpr between = .ok value later)
      (hstays : ∀ w, value ≠ .returning w)
      (hrest : RunsTo eval scope rest later others after) :
      RunsTo eval scope ((keyExpr, valueExpr) :: rest) store
        ((key, value) :: others) after

theorem proceed_of_ok {run : EvalM Value} {next : Value → EvalM Value}
    {store after : Store} {value : Value} (h : run store = .ok value after)
    (hstays : ∀ w, value ≠ .returning w) :
    run.proceed next store = next value after := by
  rw [EvalM.proceed, EvalM.bind_of_ok h]
  cases value with
  | returning w => exact absurd rfl (hstays w)
  | _ => rfl

theorem entries_of_runsTo {eval : Evaluator} {scope : ScopeId}
    {pairs : List (Expr × Expr)} {store after : Store}
    {found : List (HashKey × Value)}
    (h : RunsTo eval scope pairs store found after)
    (table : Table HashKey Value) :
    entries eval scope table pairs store =
      .ok (.hash (table.insertAll found)) after := by
  induction h generalizing table with
  | nil => rfl
  | @cons keyExpr valueExpr rest store between later after keyValue value key
      others hkey htoKey hvalue hstays _ ih =>
      have hkeyStays : ∀ w, keyValue ≠ .returning w := by
        rintro w rfl
        cases htoKey
      rw [entries, proceed_of_ok hkey hkeyStays, htoKey]
      exact (proceed_of_ok hvalue hstays).trans (ih _)

/-- A hash literal whose pairs run to keys and values makes a finite map.  Under
a value that can be a key it has the value of the last pair with a key equal to
that, or `null`; nothing else can be looked up.  Pairs with different keys make
an equal hash with the same text in any order, and the text lists each of the
keys once, in the order of keys, with what is under it. -/
theorem hash_of_runsTo {limit levels : Nat} {scope : ScopeId}
    {pairs : List (Expr × Expr)} {store after : Store}
    {found : List (HashKey × Value)}
    (h : RunsTo (Expr.eval limit levels) scope pairs store found after) :
    Expr.eval limit (levels + 1) scope (.hash pairs) store =
      .ok (.ofPairs found) after ∧
      (∀ w, (Value.ofPairs found).index w =
        if w.typeName ∈ [.integer, .boolean, .string] then
          .ok ((Table.lastValue? (Value.ofKey · == w) found).getD .null)
        else .error (.unhashable w.typeName)) ∧
      (found.Pairwise (fun left right =>
          (Value.ofKey left.1 == Value.ofKey right.1) = false) →
        ∀ others, others.Perm found →
        (Value.ofPairs others == Value.ofPairs found) = true ∧
          (Value.ofPairs others).inspect = (Value.ofPairs found).inspect) ∧
      ∃ listed : List (HashKey × Value),
        listed.Pairwise (fun left right => left.1.Below right.1) ∧
        (∀ key, key ∈ Table.keys listed ↔ key ∈ Table.keys found) ∧
        (∀ entry ∈ listed,
          (Value.ofPairs found).index (.ofKey entry.1) = .ok entry.2) ∧
        (Value.ofPairs found).inspect =
          "\x7b" ++ commaSeparated (listed.map fun entry =>
            entry.1.text ++ ": " ++ entry.2.inspect) ++ "\x7d" := by
  refine ⟨entries_of_runsTo h [], Value.index_ofPairs found,
    fun hdistinct others hperm => ?_, Table.insertAll [] found, ?_,
    fun key => Table.mem_keys_insertAll_iff,
    fun entry => Value.index_ofPairs_of_mem, ?_⟩
  · have hsame : Value.ofPairs others = Value.ofPairs found := by
      refine congrArg Value.hash
        (Table.insertAll_eq_of_perm (hdistinct.imp ?_) hperm)
      intro left right hne heq
      rw [heq, Value.beq_refl] at hne
      cases hne
    rw [hsame]
    exact ⟨Value.beq_refl _, rfl⟩
  · exact (Table.Ascending.insertAll .nil found).imp HashKey.compare_eq_lt_iff.1
  · rw [Value.ofPairs, Value.inspect, Value.inspectEntries_eq_map]

/-- Keys of all kinds, one of them twice: the second time it takes the place of
the first. -/
theorem hash_of_runsTo_mixed :
    let pairs : List (Expr × Expr) :=
      [(.string "b", .integer 1), (.boolean true, .integer 2),
        (.integer 1, .integer 3), (.string "b", .integer 4)]
    ∃ hash, Expr.eval 8 2 0 (.hash pairs) .empty = .ok hash .empty ∧
      hash.index (.string "b") = .ok (.integer 4) ∧
      hash.index (.string "true") = .ok .null ∧
      hash.index (.array []) = .error (.unhashable .array) ∧
      hash.inspect = "\x7b1: 3, true: 2, b: 4\x7d" := by
  intro pairs
  let found : List (HashKey × Value) :=
    [(.string "b", .integer 1), (.boolean true, .integer 2),
      (.integer 1, .integer 3), (.string "b", .integer 4)]
  have hstays (n : Int64) (w : Value) : Value.integer n ≠ .returning w := by
    intro h
    cases h
  have hruns : RunsTo (Expr.eval 8 1) 0 pairs .empty found .empty :=
    .cons rfl rfl rfl (hstays 1) (.cons rfl rfl rfl (hstays 2)
      (.cons rfl rfl rfl (hstays 3) (.cons rfl rfl rfl (hstays 4) (.nil _))))
  obtain ⟨heval, hindex, -, -⟩ := hash_of_runsTo hruns
  refine ⟨.ofPairs found, heval, (hindex _).trans rfl, (hindex _).trans rfl,
    (hindex _).trans rfl, ?_⟩
  decide +kernel

end Eval

end Scriptlet
