import Mathlib.Data.List.Infix
import Reckon.Proofs.Grammar

/-!
# The slots of variables

A variable takes its slot where its name first occurs. So the table after a derivation is the table
before it with the new names in the order of the text (`VariableTable.resolveAll`), and every
variable of the tree has for its slot the place of its name in the table
(`Grammar.resolves_of_derives`). Slots and names are therefore the same thing seen from two sides:
numbered by first occurrence they agree (`Resolves.idxOf_slots`).
-/

namespace Reckon

/-! ## Variables of a tree -/

mutual

/-- The variables of an expression in the order of the text, each with its slot. -/
def Expr.references : Expr → List (Int × String)
  | .var index name _ => [(index, name)]
  | .binary _ _ left right _ => left.references ++ right.references
  | .call _ arguments _ => Expr.referencesAll arguments
  | .block statements => Expr.referencesAll statements
  | .number _ _ | .string _ _ | .hole _ => []

/-- The variables of a list of expressions. -/
def Expr.referencesAll : List Expr → List (Int × String)
  | [] => []
  | e :: rest => e.references ++ Expr.referencesAll rest

end

namespace Expr

/-- The slots of an expression's variables in the order of the text. -/
def slots (e : Expr) : List Int := e.references.map Prod.fst

/-- The names of an expression's variables in the order of the text. -/
def names (e : Expr) : List String := e.references.map Prod.snd

theorem referencesAll_append (es es' : List Expr) :
    referencesAll (es ++ es') = referencesAll es ++ referencesAll es' := by
  induction es with
  | nil => rfl
  | cons e es ih => rw [List.cons_append, referencesAll, referencesAll, ih, List.append_assoc]

theorem referencesAll_concat (es : List Expr) (e : Expr) :
    referencesAll (es ++ [e]) = referencesAll es ++ e.references := by
  rw [referencesAll_append, referencesAll, referencesAll, List.append_nil]

theorem references_withSpan (e : Expr) (span : Span) :
    (e.withSpan span).references = e.references := by
  cases e <;> rfl

end Expr

/-! ## Tables -/

namespace VariableTable

/-- The table after names have been met in a row. -/
def resolveAll (t : VariableTable) (names : List String) : VariableTable :=
  names.foldl (fun t name => (t.resolve name).2) t

theorem resolveAll_append (t : VariableTable) (names more : List String) :
    t.resolveAll (names ++ more) = (t.resolveAll names).resolveAll more :=
  List.foldl_append

/-- The slot of a name is its first place in the table, or the next free one. -/
theorem resolve_eq (t : VariableTable) (name : String) :
    t.resolve name =
      (t.names.idxOf name, ⟨if name ∈ t.names then t.names else t.names ++ [name]⟩) := by
  rw [resolve, indexOf?, List.idxOf_eq_getD_idxOf?]
  cases found : t.names.idxOf? name with
  | none =>
    rw [if_neg (List.idxOf?_eq_none_iff.mp found)]
    rfl
  | some index =>
    have known : name ∈ t.names := by
      by_contra absent
      rw [List.idxOf?_eq_none_iff.mpr absent] at found
      cases found
    rw [if_pos known]
    rfl

theorem prefix_resolve (t : VariableTable) (name : String) :
    t.names <+: (t.resolve name).2.names := by
  rw [resolve_eq]
  dsimp only
  split
  · exact List.prefix_rfl
  · exact List.prefix_append ..

theorem mem_resolve (t : VariableTable) (name : String) : name ∈ (t.resolve name).2.names := by
  rw [resolve_eq]
  dsimp only
  split
  · assumption
  · exact List.mem_append_right _ List.mem_cons_self

/-- The slot of a name is its place in every table that comes later. -/
theorem resolve_eq_idxOf {t w : VariableTable} {name : String}
    (later : (t.resolve name).2.names <+: w.names) : (t.resolve name).1 = w.names.idxOf name := by
  rw [← later.idxOf_eq_of_mem (mem_resolve t name), resolve_eq]
  dsimp only
  split
  · rfl
  · next absent =>
    rw [List.idxOf_append_of_notMem absent, List.idxOf_cons_self, List.idxOf_eq_length absent,
      Nat.add_zero]

theorem prefix_resolveAll (t : VariableTable) (names : List String) :
    t.names <+: (t.resolveAll names).names := by
  induction names generalizing t with
  | nil => exact List.prefix_rfl
  | cons name names ih => exact (prefix_resolve t name).trans (ih _)

theorem mem_resolveAll {t : VariableTable} {names : List String} {name : String}
    (member : name ∈ names) : name ∈ (t.resolveAll names).names := by
  induction names generalizing t with
  | nil => cases member
  | cons other names ih =>
    rcases List.mem_cons.mp member with rfl | later
    · exact (prefix_resolveAll _ names).subset (mem_resolve t name)
    · exact ih later

/-- Names that are met after others are added in the order of their first occurrence. -/
theorem names_resolveAll {t : VariableTable} (before names : List String)
    (met : t.names = before.eraseDups) :
    (t.resolveAll names).names = (before ++ names).eraseDups := by
  induction names generalizing t before with
  | nil => rw [List.append_nil, ← met, resolveAll, List.foldl_nil]
  | cons name names ih =>
    rw [List.append_cons]
    refine ih (before ++ [name]) ?_
    dsimp only
    rw [resolve_eq, List.eraseDups_append, met]
    by_cases known : name ∈ before
    · simp [List.removeAll, known]
    · simp [List.removeAll, known, List.eraseDups_cons]

theorem names_resolveAll_empty (names : List String) :
    (empty.resolveAll names).names = names.eraseDups :=
  names_resolveAll [] names rfl

end VariableTable

/-! ## Numbering by first occurrence -/

section Numbering

variable {α β : Type} [DecidableEq α] [DecidableEq β] {f : α → β}

theorem idxOf_map_of_injective {as : List α} {a : α} (injective : ∀ b ∈ as, f b = f a → b = a) :
    (as.map f).idxOf (f a) = as.idxOf a := by
  induction as with
  | nil => rfl
  | cons b as ih =>
    rw [List.map_cons, List.idxOf_cons, List.idxOf_cons,
      ih fun c member => injective c (List.mem_cons_of_mem b member)]
    by_cases same : b = a
    · rw [same, beq_self_eq_true, beq_self_eq_true]
    · have different : f b ≠ f a := fun equal => same (injective b List.mem_cons_self equal)
      rw [beq_eq_false_iff_ne.mpr same, beq_eq_false_iff_ne.mpr different]

theorem eraseDups_map_of_injective {as : List α}
    (injective : ∀ a ∈ as, ∀ b ∈ as, f a = f b → a = b) :
    (as.map f).eraseDups = as.eraseDups.map f := by
  -- What is left behind the first element is shorter, but no tail of the list.
  induction length : as.length using Nat.strongRecOn generalizing as with
  | ind n ih =>
    cases as with
    | nil => rfl
    | cons a as =>
      have shorter : (as.filter fun b => !b == a).length < n := by
        rw [← length]
        exact Nat.lt_succ_of_le (List.length_filter_le _ as)
      have others : (as.map f).filter (fun c => !c == f a) =
          (as.filter fun b => !b == a).map f := by
        rw [List.filter_map]
        refine congrArg (List.map f) (List.filter_congr fun b member => ?_)
        have same : f b = f a ↔ b = a :=
          ⟨injective b (List.mem_cons_of_mem a member) a List.mem_cons_self, congrArg f⟩
        simp only [Function.comp, beq_eq_decide, same]
      rw [List.map_cons, List.eraseDups_cons, List.eraseDups_cons, List.map_cons, others,
        ih _ shorter (fun b inB c inC => injective b
          (List.mem_cons_of_mem a (List.mem_of_mem_filter inB)) c
          (List.mem_cons_of_mem a (List.mem_of_mem_filter inC))) rfl]

/-- Elements that can be told apart by a label have the number of their label. -/
theorem idxOf_eraseDups_map {as : List α} {a : α} (member : a ∈ as)
    (injective : ∀ a ∈ as, ∀ b ∈ as, f a = f b → a = b) :
    (as.map f).eraseDups.idxOf (f a) = as.eraseDups.idxOf a := by
  rw [eraseDups_map_of_injective injective]
  exact idxOf_map_of_injective fun b inside =>
    injective b (List.mem_eraseDups.mp inside) a member

end Numbering

/-! ## Variables of derived trees -/

/-- The table grows by the names of the variables, and their slots are the places of the names. -/
structure Resolves (t t' : VariableTable) (vs : List (Int × String)) : Prop where
  table : t' = t.resolveAll (vs.map Prod.snd)
  found : ∀ v ∈ vs, v.1 = t'.names.idxOf v.2

namespace Resolves

variable {t t' t₁ t₂ : VariableTable} {vs us : List (Int × String)}

theorem mem_names (resolves : Resolves t t' vs) {v : Int × String} (member : v ∈ vs) :
    v.2 ∈ t'.names := by
  rw [resolves.table]
  exact VariableTable.mem_resolveAll (List.mem_map_of_mem member)

theorem nil (t : VariableTable) : Resolves t t [] where
  table := rfl
  found := List.forall_mem_nil _

theorem one (t : VariableTable) (name : String) :
    Resolves t (t.resolve name).2 [((t.resolve name).1, name)] where
  table := rfl
  found v member := by
    cases List.mem_singleton.mp member
    exact congrArg Int.ofNat (VariableTable.resolve_eq_idxOf List.prefix_rfl)

theorem append (first : Resolves t t₁ vs) (second : Resolves t₁ t₂ us) :
    Resolves t t₂ (vs ++ us) where
  table := by
    rw [List.map_append, VariableTable.resolveAll_append, ← first.table, ← second.table]
  found v member := by
    rcases List.mem_append.mp member with before | after
    · have grows : t₁.names <+: t₂.names := by
        rw [second.table]
        exact VariableTable.prefix_resolveAll ..
      rw [first.found v before, grows.idxOf_eq_of_mem (first.mem_names before)]
    · exact second.found v after

/-- Two variables have the same slot exactly if they have the same name. -/
theorem slot_eq_iff (resolves : Resolves t t' vs) {v u : Int × String} (inV : v ∈ vs)
    (inU : u ∈ vs) : v.1 = u.1 ↔ v.2 = u.2 := by
  rw [resolves.found v inV, resolves.found u inU, Int.ofNat_inj]
  exact List.idxOf_inj (resolves.mem_names inV)

/-- The number of a slot by first occurrence is that of its name. -/
theorem idxOf_slots (resolves : Resolves t t' vs) {v : Int × String} (member : v ∈ vs) :
    (vs.map Prod.fst).eraseDups.idxOf v.1 = (vs.map Prod.snd).eraseDups.idxOf v.2 := by
  rw [idxOf_eraseDups_map member fun v inV u inU equal =>
      Prod.ext equal ((resolves.slot_eq_iff inV inU).mp equal),
    idxOf_eraseDups_map member fun v inV u inU equal =>
      Prod.ext ((resolves.slot_eq_iff inV inU).mpr equal) equal]

end Resolves

namespace Grammar

mutual

/-- The variables of a derived tree have their slots by the table. -/
theorem resolves_of_derives {c : Category} {t t' : VariableTable} {ts : List Token} {e : Expr} :
    Derives c t ts e t' → Resolves t t' e.references
  | .sum derived => resolves_of_derives derived
  | .assignment _ left right => (resolves_of_derives left).append (resolves_of_derives right)
  | .product derived => resolves_of_derives derived
  | .additive _ _ left right => (resolves_of_derives left).append (resolves_of_derives right)
  | .primary derived => resolves_of_derives derived
  | .multiplicative _ _ left right => (resolves_of_derives left).append (resolves_of_derives right)
  | .number .. => .nil t
  | .string .. => .nil t
  | .name name _ => .one t name
  | .bareCall .. => .nil t
  | .call _ _ _ _ derived => resolves_of_derivesArguments derived
  | .group _ _ derived => by
    rw [Expr.references_withSpan]
    exact resolves_of_derives derived

theorem resolves_of_derivesArguments {t t' : VariableTable} {ts : List Token} {es : List Expr} :
    DerivesArguments t ts es t' → Resolves t t' (Expr.referencesAll es)
  | .first derived => by
    rw [Expr.referencesAll, Expr.referencesAll, List.append_nil]
    exact resolves_of_derives derived
  | .next _ front last => by
    rw [Expr.referencesAll_concat]
    exact (resolves_of_derivesArguments front).append (resolves_of_derives last)

end

end Grammar

end Reckon
