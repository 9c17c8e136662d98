/-
# Registries through any calls

A registry keeps two tables, in which an entry gives way to a later one under its name.  A log
of the calls that it did not refuse forgets nothing, and says what the tables hold: under a name
stands what was logged last, and the extensions stand as they were first mapped (`TellsOf`).  An
extension is mapped to the name of a plugin that is registered by then, and no name is ever
taken away, so the two tables stay in agreement (`answers_of_replay`).
-/
import ElementBuild.Plugin.Registry
import Mathlib.Data.List.Nodup

namespace ElementBuild
namespace Registry

/-! ### Calls and their log -/

/-- A call that changes a registry. -/
inductive Call where
  | register (p : Plugin)
  | mapExtension (extension id : String)

/-- The registry after a call; one that is refused leaves it as it is. -/
def after (r : Registry) : Call → Registry
  | .register p => r.register p
  | .mapExtension extension id =>
    match r.mapExtension extension id with
    | .ok r' => r'
    | .error _ => r

/-- A new registry after calls. -/
def replay (calls : List Call) : Registry := calls.foldl after initial

/-- The plugins that were registered and the mappings that were accepted, oldest first. -/
structure Log where
  plugins : List Plugin
  mappings : List (String × String)

namespace Log

/-- A new registry has the plugin for plain scripts, which `esm` is mapped to. -/
def initial : Log := ⟨[Plugin.ecmascript], [("esm", "ecmascript")]⟩

/-- Whether a plugin was registered under a name. -/
def Knows (l : Log) (id : String) : Prop := ∃ p ∈ l.plugins, p.name = id

instance (l : Log) (id : String) : Decidable (l.Knows id) :=
  inferInstanceAs (Decidable (∃ p ∈ l.plugins, p.name = id))

/-- A mapping is accepted if its plugin was registered before. -/
def note (l : Log) : Call → Log
  | .register p => { l with plugins := l.plugins ++ [p] }
  | .mapExtension extension id =>
    if l.Knows id then { l with mappings := l.mappings ++ [(extension, id)] } else l

/-- The log of calls on a new registry. -/
def ofCalls (calls : List Call) : Log := calls.foldl note initial

/-- The plugin that was registered last under a name. -/
def plugin? (l : Log) (id : String) : Option Plugin := l.plugins.findRev? (·.name == id)

/-- The name that an extension was mapped to last. -/
def target? (l : Log) (extension : String) : Option String :=
  (l.mappings.findRev? (·.1 == extension)).map (·.2)

/-- The extensions that were mapped, in the order of their first mappings. -/
def types (l : Log) : List String := (l.mappings.map (·.1)).eraseDups

end Log

/-! ### Tables -/

theorem named?_cons {α : Type} (x : String × α) (xs : List (String × α)) (name : String) :
    named? (x :: xs) name = if x.1 = name then some x.2 else named? xs name := by
  by_cases h : x.1 = name <;> simp [named?, h]

theorem named?_putNamed {α : Type} (xs : List (String × α)) (name : String) (value : α)
    (other : String) :
    named? (Mapping.putNamed name value xs) other =
      if name = other then some value else named? xs other := by
  induction xs with
  | nil => exact named?_cons (name, value) [] other
  | cons x xs ih =>
    by_cases hx : x.1 = name
    · rw [Mapping.putNamed, if_pos hx, named?_cons, named?_cons, hx]
      by_cases hother : name = other <;> simp [hother]
    · rw [Mapping.putNamed, if_neg hx, named?_cons, named?_cons, ih]
      by_cases hother : x.1 = other
      · rw [if_pos hother, if_pos hother, if_neg fun h => hx (hother.trans h.symm)]
      · rw [if_neg hother, if_neg hother]

theorem names_putNamed {α : Type} (xs : List (String × α)) (name : String) (value : α) :
    (Mapping.putNamed name value xs).map (·.1) =
      if name ∈ xs.map (·.1) then xs.map (·.1) else xs.map (·.1) ++ [name] := by
  induction xs with
  | nil => rfl
  | cons x xs ih =>
    by_cases hx : x.1 = name
    · simp [Mapping.putNamed, hx]
    · have hmem : name ∈ (x :: xs).map (·.1) ↔ name ∈ xs.map (·.1) := by
        rw [List.map_cons, List.mem_cons, or_iff_right (Ne.symm hx)]
      rw [Mapping.putNamed, if_neg hx, List.map_cons, ih]
      by_cases hname : name ∈ xs.map (·.1)
      · rw [if_pos hname, if_pos (hmem.2 hname), List.map_cons]
      · rw [if_neg hname, if_neg (mt hmem.1 hname), List.map_cons, List.cons_append]

theorem mem_names_iff {α : Type} (xs : List (String × α)) (name : String) :
    name ∈ xs.map (·.1) ↔ ∃ value, named? xs name = some value := by
  induction xs with
  | nil => simp [named?]
  | cons x xs ih =>
    rw [List.map_cons, List.mem_cons, ih, named?_cons]
    by_cases hx : x.1 = name
    · simp [hx]
    · rw [if_neg hx, or_iff_right (Ne.symm hx)]

theorem findRev?_concat {α : Type} (p : α → Bool) (xs : List α) (x : α) :
    (xs ++ [x]).findRev? p = if p x = true then some x else xs.findRev? p := by
  rw [List.findRev?_eq_find?_reverse, List.findRev?_eq_find?_reverse, List.reverse_append,
    List.reverse_singleton, List.singleton_append, List.find?_cons]
  by_cases hx : p x = true <;> simp [hx]

theorem eraseDups_concat (xs : List String) (x : String) :
    (xs ++ [x]).eraseDups = if x ∈ xs then xs.eraseDups else xs.eraseDups ++ [x] := by
  rw [List.eraseDups_append, List.removeAll]
  by_cases hx : x ∈ xs
  · simp [hx]
  · simp [hx, List.eraseDups_cons]

/-! ### What a log tells -/

namespace Log

variable {l : Log} {p : Plugin} {extension id : String}

theorem plugin?_register (id : String) :
    (l.note (.register p)).plugin? id = if p.name = id then some p else l.plugin? id := by
  change (l.plugins ++ [p]).findRev? _ = _
  rw [findRev?_concat, plugin?]
  by_cases h : p.name = id <;> simp [h]

theorem target?_concat (other : String) :
    ({ l with mappings := l.mappings ++ [(extension, id)] } : Log).target? other =
      if extension = other then some id else l.target? other := by
  change ((l.mappings ++ [(extension, id)]).findRev? _).map _ = _
  rw [findRev?_concat, target?]
  by_cases h : extension = other <;> simp [h]

theorem types_concat :
    ({ l with mappings := l.mappings ++ [(extension, id)] } : Log).types =
      if extension ∈ l.types then l.types else l.types ++ [extension] := by
  change ((l.mappings ++ [(extension, id)]).map (·.1)).eraseDups = _
  rw [List.map_append, List.map_singleton, eraseDups_concat, types]
  simp only [List.mem_eraseDups]

theorem knows_iff : l.Knows id ↔ ∃ p, l.plugin? id = some p := by
  rw [Knows, plugin?, List.findRev?_eq_find?_reverse, ← Option.isSome_iff_exists,
    List.find?_isSome]
  simp

end Log

/-- The tables of a registry hold what a log tells. -/
structure TellsOf (l : Log) (r : Registry) : Prop where
  plugin : ∀ id, named? r.plugins id = l.plugin? id
  target : ∀ extension, named? r.extensions extension = l.target? extension
  types : r.types = l.types
  nodup : r.types.Nodup
  /-- Extensions were mapped to what was registered. -/
  known : ∀ extension id, l.target? extension = some id → l.Knows id

variable {l : Log} {r : Registry}

namespace TellsOf

/-- Nothing is to be told of empty tables. -/
theorem empty : TellsOf ⟨[], []⟩ ⟨[], []⟩ where
  plugin _ := rfl
  target _ := rfl
  types := rfl
  nodup := List.nodup_nil
  known _ _ htarget := by cases htarget

theorem register (h : TellsOf l r) (p : Plugin) :
    TellsOf (l.note (.register p)) (r.register p) where
  plugin id := by
    rw [Log.plugin?_register, Registry.register, named?_putNamed, h.plugin]
  target := h.target
  types := h.types
  nodup := h.nodup
  known extension id htarget := by
    obtain ⟨q, hq, hname⟩ := h.known extension id htarget
    exact ⟨q, List.mem_append_left _ hq, hname⟩

/-- A mapping is refused unless its plugin was registered. -/
theorem mapExtension (h : TellsOf l r) (extension id : String) :
    (l.Knows id → r.mapExtension extension id =
      .ok { r with extensions := Mapping.putNamed extension id r.extensions }) ∧
    (¬ l.Knows id → r.mapExtension extension id = .error (.unknownPlugin id extension)) := by
  rw [Registry.mapExtension, h.plugin, Log.knows_iff, ← Option.isSome_iff_exists]
  exact ⟨fun hsome => if_pos hsome, fun hnone => if_neg hnone⟩

theorem putExtension (h : TellsOf l r) {id : String} (hid : l.Knows id) (extension : String) :
    TellsOf { l with mappings := l.mappings ++ [(extension, id)] }
      { r with extensions := Mapping.putNamed extension id r.extensions } where
  plugin := h.plugin
  target other := by
    rw [Log.target?_concat, ← h.target]
    exact named?_putNamed _ _ _ _
  types := by
    rw [Log.types_concat, ← h.types]
    exact names_putNamed _ _ _
  nodup := by
    have hnames : Registry.types
        { r with extensions := Mapping.putNamed extension id r.extensions } = _ :=
      names_putNamed _ _ _
    rw [hnames]
    split
    · exact h.nodup
    · rename_i hnew
      exact List.concat_eq_append ▸ List.Nodup.concat hnew h.nodup
  known other target htarget := by
    rw [Log.target?_concat] at htarget
    split at htarget
    · cases htarget
      exact hid
    · exact h.known other target htarget

theorem initial : TellsOf Log.initial Registry.initial :=
  (empty.register Plugin.ecmascript).putExtension
    ⟨Plugin.ecmascript, List.mem_singleton_self _, rfl⟩ "esm"

/-- What one call keeps: the log tells of the registry. -/
theorem after (h : TellsOf l r) (call : Call) : TellsOf (l.note call) (r.after call) := by
  cases call with
  | register p => exact h.register p
  | mapExtension extension id =>
    obtain ⟨haccepted, hrefused⟩ := h.mapExtension extension id
    rw [Registry.after, Log.note]
    by_cases hid : l.Knows id
    · rw [haccepted hid, if_pos hid]
      exact h.putExtension hid extension
    · rw [hrefused hid, if_neg hid]
      exact h

theorem foldl (h : TellsOf l r) (calls : List Call) :
    TellsOf (calls.foldl Log.note l) (calls.foldl Registry.after r) := by
  induction calls generalizing l r with
  | nil => exact h
  | cons call calls ih => exact ih (h.after call)

/-- An extension has a plugin if and only if it was mapped: the one that was registered last
under the name that the extension was mapped to last. -/
theorem forExtension (h : TellsOf l r) (extension : String) :
    (∀ p, r.forExtension extension = .ok p ↔
      ∃ id, l.target? extension = some id ∧ l.plugin? id = some p) ∧
    ((∃ p, r.forExtension extension = .ok p) ↔ extension ∈ r.types) := by
  have hspec : ∀ p, r.forExtension extension = .ok p ↔
      ∃ id, l.target? extension = some id ∧ l.plugin? id = some p := by
    intro p
    have hfound : (named? r.extensions extension).bind (named? r.plugins) =
        (l.target? extension).bind l.plugin? := by
      rw [h.target, funext h.plugin]
    rw [Registry.forExtension, hfound, ← Option.bind_eq_some_iff]
    cases (l.target? extension).bind l.plugin? <;> simp
  refine ⟨hspec, ?_⟩
  rw [Registry.types, mem_names_iff, h.target]
  constructor
  · rintro ⟨p, hp⟩
    obtain ⟨id, hid, -⟩ := (hspec p).1 hp
    exact ⟨id, hid⟩
  · rintro ⟨id, hid⟩
    obtain ⟨p, hp⟩ := Log.knows_iff.1 (h.known extension id hid)
    exact ⟨p, (hspec p).2 ⟨id, hid, hp⟩⟩

end TellsOf

/-! ### Any calls -/

theorem tellsOf_replay (calls : List Call) : TellsOf (Log.ofCalls calls) (replay calls) :=
  TellsOf.initial.foldl calls

/-- **What a registry answers after any calls.**  It has a plugin for an extension if and only if
it lists the extension: the plugin that was registered last under the name that the extension
was mapped to last.  It lists no extension twice, and all in the order of their first mappings.
It refuses to map to a name that no plugin was registered under, and is then what it was. -/
theorem answers_of_replay (calls : List Call) :
    (∀ extension, (∃ p, (replay calls).forExtension extension = .ok p) ↔
      extension ∈ (replay calls).types) ∧
    (∀ extension p, (replay calls).forExtension extension = .ok p ↔
      ∃ id, (Log.ofCalls calls).target? extension = some id ∧
        (Log.ofCalls calls).plugin? id = some p) ∧
    (replay calls).types.Nodup ∧
    (replay calls).types = (Log.ofCalls calls).types ∧
    ∀ extension id,
      ((∃ r, (replay calls).mapExtension extension id = .ok r) ↔ (Log.ofCalls calls).Knows id) ∧
      ∀ fault, (replay calls).mapExtension extension id = .error fault →
        fault = .unknownPlugin id extension ∧
          replay (calls ++ [.mapExtension extension id]) = replay calls := by
  have htells := tellsOf_replay calls
  refine ⟨fun extension => (htells.forExtension extension).2,
    fun extension => (htells.forExtension extension).1, htells.nodup, htells.types,
    fun extension id => ?_⟩
  obtain ⟨haccepted, hrefused⟩ := htells.mapExtension extension id
  refine ⟨?_, fun fault hfault => ?_⟩
  · by_cases hid : (Log.ofCalls calls).Knows id
    · exact iff_of_true ⟨_, haccepted hid⟩ hid
    · refine iff_of_false ?_ hid
      rw [hrefused hid]
      rintro ⟨_, h⟩
      cases h
  · have hunchanged : replay (calls ++ [.mapExtension extension id]) =
        (replay calls).after (.mapExtension extension id) := List.foldl_concat ..
    rw [hunchanged, Registry.after, hfault]
    refine ⟨?_, rfl⟩
    by_cases hid : (Log.ofCalls calls).Knows id
    · rw [haccepted hid] at hfault
      cases hfault
    · rw [hrefused hid] at hfault
      cases hfault
      rfl

end Registry
end ElementBuild
