/-!
# The disk

A disk is a tree of directories and files.  It is held as a list of its entries,
each under its *place*: the names on the way from the top, innermost first, so
that `name :: dir` is the entry `name` of the directory `dir`.  The type keeps
what every operation needs: no place occurs twice, whatever has an entry in it
is a directory, and so is the working directory.

* `node?_put`, `node?_eraseFile`, `node?_eraseTree` — what each change does to
  each place; they are all that later modules use of the representation;
* `mem_children` — a directory lists exactly the names that have an entry.
-/

namespace FractalShader

/-- Names on the way from the top of the disk, innermost first. -/
abbrev Place := List String

/-- What stands at a place. -/
inductive Node where
  | directory
  | file (content : ByteArray)

instance : DecidableEq Node
  | .directory, .directory => isTrue rfl
  | .directory, .file _ => isFalse Node.noConfusion
  | .file _, .directory => isFalse Node.noConfusion
  | .file a, .file b =>
    if h : a.data = b.data then isTrue (congrArg Node.file (ByteArray.ext h))
    else isFalse fun e => h (congrArg ByteArray.data (Node.file.inj e))

def Node.isDirectory : Node → Bool
  | .directory => true
  | .file _ => false

/-- What a list of entries has at the place `p`. -/
def entryAt (p : Place) : List (Place × Node) → Option Node
  | [] => none
  | (q, x) :: es => if p = q then some x else entryAt p es

/-- A tree of directories and files with a working directory. -/
structure Disk where
  home : Place
  entries : List (Place × Node)
  distinct : (entries.map Prod.fst).Nodup
  rooted : ∀ name dir, entryAt (name :: dir) entries ≠ none →
    entryAt dir entries = some .directory
  homeExists : entryAt home entries = some .directory

namespace Disk

/-- What stands at the place `p`. -/
def node? (d : Disk) (p : Place) : Option Node := entryAt p d.entries

theorem node?_parent (d : Disk) {name : String} {dir : Place} (h : d.node? (name :: dir) ≠ none) :
    d.node? dir = some .directory := d.rooted name dir h

theorem node?_home (d : Disk) : d.node? d.home = some .directory := d.homeExists

/-! ## The empty disk -/

/-- The entries of a disk that holds the directory `home` and what leads to it. -/
def homeEntries : Place → List (Place × Node)
  | [] => [([], .directory)]
  | name :: dir => (name :: dir, .directory) :: homeEntries dir

theorem entryAt_homeEntries (home p : Place) :
    entryAt p (homeEntries home) = if p <:+ home then some .directory else none := by
  induction home with
  | nil => simp [homeEntries, entryAt]
  | cons name dir ih =>
    by_cases h : p = name :: dir
    · simp [homeEntries, entryAt, h]
    · simp [homeEntries, entryAt, ih, List.suffix_cons_iff, h]

theorem homeEntries_length_le (home : Place) :
    ∀ e ∈ homeEntries home, e.1.length ≤ home.length := by
  induction home with
  | nil => simp [homeEntries]
  | cons name dir ih =>
    intro e he
    simp only [homeEntries, List.mem_cons] at he
    rcases he with rfl | he
    · simp
    · have := ih e he
      simp only [List.length_cons]
      omega

theorem homeEntries_distinct (home : Place) : ((homeEntries home).map Prod.fst).Nodup := by
  induction home with
  | nil => simp [homeEntries]
  | cons name dir ih =>
    simp only [homeEntries, List.map_cons, List.nodup_cons]
    refine ⟨fun hmem => ?_, ih⟩
    obtain ⟨e, he, heq⟩ := List.mem_map.mp hmem
    have := homeEntries_length_le dir e he
    simp only [heq, List.length_cons] at this
    omega

/-- The disk on which there is only the working directory `home`. -/
def empty (home : Place) : Disk where
  home := home
  entries := homeEntries home
  distinct := homeEntries_distinct home
  rooted name dir h := by
    rw [entryAt_homeEntries] at h ⊢
    split at h
    · next hs => rw [if_pos ((List.suffix_cons name dir).trans hs)]
    · exact absurd rfl h
  homeExists := by rw [entryAt_homeEntries, if_pos (List.suffix_refl home)]

theorem node?_empty (home p : Place) :
    (empty home).node? p = if p <:+ home then some .directory else none :=
  entryAt_homeEntries home p

/-! ## Writing -/

/-- The entries with `x` at the place `p`. -/
def putEntries (entries : List (Place × Node)) (p : Place) (x : Node) : List (Place × Node) :=
  (p, x) :: entries.filter fun e => e.1 ≠ p

theorem entryAt_filter (entries : List (Place × Node)) (keep : Place → Bool) (p : Place) :
    entryAt p (entries.filter fun e => keep e.1) = if keep p then entryAt p entries else none := by
  induction entries with
  | nil => simp [entryAt]
  | cons e es ih =>
    obtain ⟨q, x⟩ := e
    by_cases hk : keep q <;> by_cases hq : p = q <;> simp_all [entryAt]

theorem entryAt_putEntries (entries : List (Place × Node)) (p : Place) (x : Node) (q : Place) :
    entryAt q (putEntries entries p x) = if q = p then some x else entryAt q entries := by
  have h := entryAt_filter entries (fun r => decide (r ≠ p)) q
  by_cases hq : q = p
  · simp [putEntries, entryAt, hq]
  · simpa [putEntries, entryAt, hq] using h

theorem distinct_filter {entries : List (Place × Node)} (h : (entries.map Prod.fst).Nodup)
    (keep : Place × Node → Bool) : ((entries.filter keep).map Prod.fst).Nodup :=
  h.sublist (List.filter_sublist.map Prod.fst)

/-- May `x` be put at the place `name :: dir`?  Its directory must exist, and a file never takes
the place of a directory. -/
def admits (d : Disk) (name : String) (dir : Place) (x : Node) : Bool :=
  decide (d.node? dir = some .directory)
    && (x.isDirectory || decide (d.node? (name :: dir) ≠ some .directory))

/-- Put `x` under `name` into the directory `dir`, where that is possible. -/
def put (d : Disk) (name : String) (dir : Place) (x : Node) : Disk :=
  if h : d.admits name dir x then
    { home := d.home
      entries := putEntries d.entries (name :: dir) x
      distinct := by
        simp only [putEntries, List.map_cons, List.nodup_cons]
        refine ⟨fun hmem => ?_, distinct_filter d.distinct _⟩
        obtain ⟨e, he, heq⟩ := List.mem_map.mp hmem
        simp [heq] at he
      rooted := by
        intro n q hq
        simp only [admits, Bool.and_eq_true, Bool.or_eq_true, decide_eq_true_eq] at h
        rw [entryAt_putEntries] at hq ⊢
        split at hq
        · next heq =>
          obtain ⟨rfl, rfl⟩ := List.cons.inj heq
          have hne : q ≠ n :: q := fun hc => by simpa using congrArg List.length hc
          rw [if_neg hne]
          exact h.1
        · have hold := d.rooted n q hq
          split
          · next heq =>
            subst heq
            rcases h.2 with hx | hx
            · cases x <;> simp_all [Node.isDirectory]
            · exact absurd hold hx
          · exact hold
      homeExists := by
        simp only [admits, Bool.and_eq_true, Bool.or_eq_true, decide_eq_true_eq] at h
        rw [entryAt_putEntries]
        split
        · next heq =>
          rcases h.2 with hx | hx
          · cases x <;> simp_all [Node.isDirectory]
          · exact absurd (heq ▸ d.homeExists) hx
        · exact d.homeExists }
  else d

theorem node?_put {d : Disk} {name : String} {dir : Place} {x : Node}
    (h : d.admits name dir x = true) (q : Place) :
    (d.put name dir x).node? q = if q = name :: dir then some x else d.node? q := by
  rw [put, dif_pos h]
  exact entryAt_putEntries d.entries (name :: dir) x q

@[simp] theorem home_put (d : Disk) (name : String) (dir : Place) (x : Node) :
    (d.put name dir x).home = d.home := by
  unfold put
  split <;> rfl

/-! ## Removing -/

/-- Take away the file at the place `p`; a directory stays. -/
def eraseFile (d : Disk) (p : Place) : Disk :=
  if h : d.node? p ≠ some .directory then
    { home := d.home
      entries := d.entries.filter fun e => e.1 ≠ p
      distinct := distinct_filter d.distinct _
      rooted := by
        intro n q hq
        have hl := entryAt_filter d.entries (fun r => decide (r ≠ p))
        rw [hl] at hq ⊢
        split at hq
        · have hold := d.rooted n q hq
          have hqp : q ≠ p := by
            rintro rfl
            exact h hold
          simpa [hqp] using hold
        · exact absurd rfl hq
      homeExists := by
        have hl := entryAt_filter d.entries (fun r => decide (r ≠ p))
        have hhp : d.home ≠ p := by
          rintro rfl
          exact h d.homeExists
        rw [hl]
        simpa [hhp] using d.homeExists }
  else d

theorem node?_eraseFile {d : Disk} {p : Place} (h : d.node? p ≠ some .directory) (q : Place) :
    (d.eraseFile p).node? q = if q = p then none else d.node? q := by
  rw [eraseFile, dif_pos h]
  have hl := entryAt_filter d.entries (fun r => decide (r ≠ p)) q
  by_cases hq : q = p <;> simpa [node?, hq] using hl

@[simp] theorem home_eraseFile (d : Disk) (p : Place) : (d.eraseFile p).home = d.home := by
  unfold eraseFile
  split <;> rfl

/-- Take away what stands at the place `p` and everything below it.  The working directory and
what leads to it stay. -/
def eraseTree (d : Disk) (p : Place) : Disk :=
  if h : p.isSuffixOf d.home then d
  else
    { home := d.home
      entries := d.entries.filter fun e => !p.isSuffixOf e.1
      distinct := distinct_filter d.distinct _
      rooted := by
        intro n q hq
        have hl := entryAt_filter d.entries (fun r => !p.isSuffixOf r)
        rw [hl] at hq ⊢
        split at hq
        · next hk =>
          have hold := d.rooted n q hq
          have hq' : p.isSuffixOf q = false := by
            rw [Bool.eq_false_iff]
            intro hc
            rw [List.isSuffixOf_iff_suffix] at hc
            have := hc.trans (List.suffix_cons n q)
            rw [← List.isSuffixOf_iff_suffix] at this
            simp [this] at hk
          simpa [hq'] using hold
        · exact absurd rfl hq
      homeExists := by
        have hl := entryAt_filter d.entries (fun r => !p.isSuffixOf r)
        rw [hl]
        simpa [h] using d.homeExists }

theorem node?_eraseTree {d : Disk} {p : Place} (h : p.isSuffixOf d.home = false) (q : Place) :
    (d.eraseTree p).node? q = if p.isSuffixOf q then none else d.node? q := by
  rw [eraseTree, dif_neg (by simp [h])]
  have hl := entryAt_filter d.entries (fun r => !p.isSuffixOf r) q
  cases hq : p.isSuffixOf q <;> simpa [node?, hq] using hl

/-! ## Listing -/

/-- The names of the entries of the directory at the place `dir`. -/
def children (d : Disk) (dir : Place) : List String :=
  d.entries.filterMap fun e =>
    match e.1 with
    | name :: above => if above = dir then some name else none
    | [] => none

theorem mem_children {d : Disk} {dir : Place} {name : String} :
    name ∈ d.children dir ↔ d.node? (name :: dir) ≠ none := by
  have key : ∀ es : List (Place × Node), entryAt (name :: dir) es ≠ none ↔
      ∃ e ∈ es, e.1 = name :: dir := by
    intro es
    induction es with
    | nil => simp [entryAt]
    | cons e es ih =>
      obtain ⟨q, x⟩ := e
      by_cases hq : name :: dir = q
      · simp [entryAt, hq]
      · simp [entryAt, hq, ih, Ne.symm hq]
  rw [node?, key]
  simp only [children, List.mem_filterMap]
  constructor
  · rintro ⟨e, he, hm⟩
    refine ⟨e, he, ?_⟩
    split at hm
    · next n above h =>
      split at hm
      · next ha =>
        simp only [Option.some.injEq] at hm
        rw [h, ha, hm]
      · exact absurd hm (by simp)
    · exact absurd hm (by simp)
  · rintro ⟨e, he, h⟩
    exact ⟨e, he, by simp [h]⟩

theorem children_nodup (d : Disk) (dir : Place) : (d.children dir).Nodup := by
  have key : ∀ es : List (Place × Node), (es.map Prod.fst).Nodup →
      (es.filterMap fun e => match e.1 with
        | name :: above => if above = dir then some name else none
        | [] => none).Nodup := by
    intro es h
    induction es with
    | nil => simp
    | cons e es ih =>
      simp only [List.map_cons, List.nodup_cons] at h
      have ih := ih h.2
      rw [List.filterMap_cons]
      split
      · exact ih
      · next name hname =>
        refine List.nodup_cons.mpr ⟨fun hmem => h.1 ?_, ih⟩
        obtain ⟨e', he', hm⟩ := List.mem_filterMap.mp hmem
        have hplace : ∀ f : Place × Node, (match f.1 with
            | name :: above => if above = dir then some name else none
            | [] => none) = some name → f.1 = name :: dir := by
          intro f hf
          split at hf
          · next n above hfe =>
            split at hf
            · next ha => simp only [Option.some.injEq] at hf; rw [hfe, ha, hf]
            · exact absurd hf (by simp)
          · exact absurd hf (by simp)
        exact List.mem_map.mpr ⟨e', he', (hplace e' hm).trans (hplace e hname).symm⟩
  exact key d.entries d.distinct

end Disk

end FractalShader
