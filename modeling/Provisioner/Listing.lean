import Provisioner.Alone
import Provisioner.Keyed.Pages

/-!
# Reading a listing page by page

A client asks `list_environments` for page after page of a table that does not change,
until it has received as many rows as there are in total. The query orders rows by their
creation instants only, so the database may put rows of one instant in another order for
every page.
-/

namespace Provisioner

open Resumption Keyed.Pages

namespace Listing

/-- What a client receives that has received `received` rows before: for every page the
total and the rows. -/
inductive Paging (deployment : Deployment) (world : World) (principal : String)
    (status : Option EnvironmentStatus) (limit : Nat) :
    (offset received : Nat) → List (Nat × List Environment) → Prop
  | last (offset received total : Nat) (rows : List Environment)
      (trace : List (Entry Reply)) (next : World) :
      Executes (lone deployment Unrestricted) world
        (Router.listEnvironments principal status limit offset) trace next
        (.ok (.listing total rows)) →
      total ≤ received + rows.length →
      Paging deployment world principal status limit offset received [(total, rows)]
  | more (offset received total : Nat) (rows : List Environment)
      (trace : List (Entry Reply)) (next : World) (pages : List (Nat × List Environment)) :
      Executes (lone deployment Unrestricted) world
        (Router.listEnvironments principal status limit offset) trace next
        (.ok (.listing total rows)) →
      received + rows.length < total →
      Paging deployment world principal status limit (offset + limit)
        (received + rows.length) pages →
      Paging deployment world principal status limit offset received
        ((total, rows) :: pages)

/-- Every row of the principal that matches the filter is received once, in descending
order of creation, and every page says how many there are. -/
structure Faithful (world : World) (principal : String) (status : Option EnvironmentStatus)
    (pages : List (Nat × List Environment)) : Prop where
  total : ∀ page ∈ pages, page.1 = (world.db.owned principal status).length
  once : (pages.flatMap Prod.snd).Perm (world.db.owned principal status)
  descending : (pages.flatMap Prod.snd).Pairwise
    fun first second => second.createdAt ≤ first.createdAt

variable {deployment : Deployment} {world next : World} {principal : String}
  {status : Option EnvironmentStatus} {limit offset received : Nat}
  {pages : List (Nat × List Environment)}

/-- The rows of a listing are distinct. -/
theorem nodup_owned : (world.db.owned principal status).Nodup :=
  (List.Nodup.of_map _ world.db.nodup).filter _

/-- The order that the table itself gives. -/
theorem ranked_selected :
    Ranked Environment.createdAt (world.db.owned principal status)
      (world.selected (.listOwned principal status limit offset)) where
  perm := List.mergeSort_perm _ _
  descending := by
    have transitive : ∀ first second third : Environment,
        decide (second.createdAt ≤ first.createdAt) = true →
        decide (third.createdAt ≤ second.createdAt) = true →
        decide (third.createdAt ≤ first.createdAt) = true := by
      intro first second third high low
      exact decide_eq_true ((of_decide_eq_true low).trans (of_decide_eq_true high))
    have total : ∀ first second : Environment,
        (decide (second.createdAt ≤ first.createdAt) ||
          decide (first.createdAt ≤ second.createdAt)) = true := by
      intro first second
      rw [Bool.or_eq_true, decide_eq_true_iff, decide_eq_true_iff]
      exact le_total second.createdAt first.createdAt
    exact (List.pairwise_mergeSort transitive total _).imp of_decide_eq_true

/-- A page is cut from an order of the rows. -/
theorem listOwned_iff {rows : List Environment} :
    (lone deployment Unrestricted).answers world
        (.listOwned principal status limit offset) (.ok rows) next ↔
      next = world ∧ ∃ full,
        Ranked Environment.createdAt (world.db.owned principal status) full ∧
        rows = slice limit offset full := by
  constructor
  · rintro ⟨choice, -, executed⟩
    change world.exec _ choice = _ at executed
    cases choice with
    | ok =>
        cases executed
        exact ⟨rfl, _, ranked_selected, rfl⟩
    | rows full =>
        simp only [World.exec, World.ordered] at executed
        split at executed
        · rename_i ordered
          cases executed
          exact ⟨rfl, full, ⟨ordered.1.trans (List.mergeSort_perm _ _), ordered.2⟩, rfl⟩
        · cases executed
    | fail exc | failAfter exc =>
        simp only [World.exec] at executed
        split at executed <;> cases executed
    | _ => cases executed
  · rintro ⟨rfl, full, ranked, rfl⟩
    refine ⟨.rows full, trivial, ?_⟩
    have ordered : full.Perm (next.selected (.listOwned principal status limit offset)) :=
      ranked.perm.trans (List.mergeSort_perm _ _).symm
    exact if_pos ⟨ordered, ranked.descending⟩

/-- The total is the number of the rows, and only a principal without a null character gets
one. -/
theorem countOwned_iff {total : Nat} :
    (lone deployment Unrestricted).answers world (.countOwned principal status) (.ok total)
        next ↔
      next = world ∧ '\x00' ∉ principal.toList ∧
        total = (world.db.owned principal status).length := by
  constructor
  · rintro ⟨choice, -, executed⟩
    change world.exec _ choice = _ at executed
    cases choice with
    | ok =>
        obtain ⟨counted, rfl⟩ := Prod.mk.inj (Option.some.inj executed)
        by_cases null : '\x00' ∈ principal.toList
        · rw [World.counted_of_null null] at counted
          cases counted
        · rw [World.counted_of_clean null] at counted
          cases counted
          exact ⟨rfl, null, rfl⟩
    | fail exc | failAfter exc =>
        simp only [World.exec] at executed
        split at executed <;> cases executed
    | _ => cases executed
  · rintro ⟨rfl, clean, rfl⟩
    exact ⟨.ok, trivial, congrArg (fun reply => some (reply, _))
      (World.counted_of_clean clean _)⟩

/-- An answered request shows how many rows there are and a page of them. -/
theorem listing_iff {total : Nat} {rows : List Environment} :
    (∃ trace last, Executes (lone deployment Unrestricted) world
      (Router.listEnvironments principal status limit offset) trace last
      (.ok (.listing total rows))) ↔
      '\x00' ∉ principal.toList ∧ total = (world.db.owned principal status).length ∧ ∃ full,
        Ranked Environment.createdAt (world.db.owned principal status) full ∧
        rows = slice limit offset full := by
  simp only [Router.listEnvironments, Executes.bind_ok_iff]
  constructor
  · rintro ⟨_, last, _, _, _, number, -, counted, _, _, _, found, -, listed, returned⟩
    obtain ⟨rfl, clean, rfl⟩ := countOwned_iff.mp (Alone.executes_perform.mp counted).2
    obtain ⟨rfl, full, ranked, rfl⟩ := listOwned_iff.mp (Alone.executes_perform.mp listed).2
    obtain ⟨-, -, same⟩ := Executes.pure_iff.mp returned
    cases same
    exact ⟨clean, rfl, full, ranked, rfl⟩
  · rintro ⟨clean, rfl, full, ranked, rfl⟩
    refine ⟨_, world, _, _, world, _, rfl,
      Alone.executes_perform.mpr ⟨rfl, countOwned_iff.mpr ⟨rfl, clean, rfl⟩⟩, _, _, world, _, rfl,
      Alone.executes_perform.mpr ⟨rfl, listOwned_iff.mpr ⟨rfl, full, ranked, rfl⟩⟩,
      .pure _ _⟩

/-- Every page of every order can be the answer to a request. -/
theorem exists_listing (deployment : Deployment) {full : List Environment}
    (clean : '\x00' ∉ principal.toList)
    (ranked : Ranked Environment.createdAt (world.db.owned principal status) full) :
    ∃ trace last, Executes (lone deployment Unrestricted) world
      (Router.listEnvironments principal status limit offset) trace last
      (.ok (.listing (world.db.owned principal status).length (slice limit offset full))) :=
  listing_iff.mpr ⟨clean, rfl, full, ranked, rfl⟩

/-- Nobody else than a principal without a null character receives a page. -/
theorem Paging.clean
    (paging : Paging deployment world principal status limit offset received pages) :
    '\x00' ∉ principal.toList := by
  cases paging with
  | last offset received total rows trace next executed reaches =>
      exact (listing_iff.mp ⟨trace, next, executed⟩).1
  | more offset received total rows trace next pages executed short paging =>
      exact (listing_iff.mp ⟨trace, next, executed⟩).1

/-- A client that has received all rows up to its offset reads pages of the rows. -/
theorem Paging.reading
    (paging : Paging deployment world principal status limit offset received pages)
    (aligned : received = offset) :
    (∀ page ∈ pages, page.1 = (world.db.owned principal status).length) ∧
      Reading Environment.createdAt (world.db.owned principal status) limit offset
        (pages.map Prod.snd) := by
  induction paging with
  | last offset received total rows trace next executed reaches =>
      obtain ⟨-, rfl, full, ranked, rfl⟩ := listing_iff.mp ⟨trace, next, executed⟩
      rw [length_slice] at reaches
      exact ⟨by simp, .last offset full ranked (by omega)⟩
  | more offset received total rows trace next pages executed short paging
      inductionHypothesis =>
      obtain ⟨-, rfl, full, ranked, rfl⟩ := listing_iff.mp ⟨trace, next, executed⟩
      have length := ranked.perm.length_eq
      rw [length_slice] at short inductionHypothesis
      obtain ⟨totals, reading⟩ := inductionHypothesis (by omega)
      exact ⟨List.forall_mem_cons.mpr ⟨rfl, totals⟩,
        .more offset full _ ranked (by omega) reading⟩

/-- Pages that orders of the rows give can be what a client receives. -/
theorem paging_of_reading {pages : List (List Environment)}
    (clean : '\x00' ∉ principal.toList)
    (reading : Reading Environment.createdAt (world.db.owned principal status) limit offset
      pages) :
    Paging deployment world principal status limit offset offset
      (pages.map fun rows => ((world.db.owned principal status).length, rows)) := by
  induction reading with
  | last offset full ranked reaches =>
      obtain ⟨trace, next, executed⟩ := exists_listing deployment clean ranked
      refine .last offset offset _ _ trace next executed ?_
      rw [length_slice, ranked.perm.length_eq]
      omega
  | more offset full pages ranked short reading inductionHypothesis =>
      obtain ⟨trace, next, executed⟩ := exists_listing deployment clean ranked
      have length : (slice limit offset full).length = limit := by
        rw [length_slice, ranked.perm.length_eq]
        omega
      refine .more offset offset _ _ trace next _ executed (by rwa [length]) ?_
      rwa [length]

/-- Where no boundary separates rows of one instant, every client receives every row. -/
theorem Paging.faithful
    (whole : ∀ number, ¬Straddled Environment.createdAt (world.db.owned principal status)
      (number * limit))
    (paging : Paging deployment world principal status limit 0 0 pages) :
    Faithful world principal status pages := by
  have ranked := @ranked_selected world principal status limit 0
  obtain ⟨totals, reading⟩ := paging.reading rfl
  have once := reading.perm whole (Nat.dvd_zero limit) ranked
  have descending := reading.descending ranked
  rw [← List.flatMap_def] at once descending
  exact ⟨totals, once, descending⟩

/-- Where one does, some client loses a row. -/
theorem exists_unfaithful (clean : '\x00' ∉ principal.toList) (positive : 0 < limit)
    {number : Nat}
    (straddled : Straddled Environment.createdAt (world.db.owned principal status)
      (number * limit)) :
    ∃ pages, Paging deployment world principal status limit 0 0 pages ∧
      ¬Faithful world principal status pages := by
  obtain ⟨pages, reading, lost⟩ := straddled.exists_reading
    (@ranked_selected world principal status limit 0) nodup_owned positive
  refine ⟨_, paging_of_reading clean reading, fun faithful => lost ?_⟩
  have once := faithful.once
  rwa [List.flatMap_map, List.flatMap_id'] at once

/-- Every table can be read to its end by a principal without a null character. -/
theorem exists_paging (deployment : Deployment) (world : World)
    (status : Option EnvironmentStatus) (clean : '\x00' ∉ principal.toList)
    (positive : 0 < limit) :
    ∃ pages, Paging deployment world principal status limit 0 0 pages := by
  obtain ⟨pages, reading, -⟩ :=
    (@ranked_selected world principal status limit 0).exists_reading positive 0
  exact ⟨_, paging_of_reading clean reading⟩

/-- A payload with another name than the sample has. -/
def nextPayload : EnvironmentCreate :=
  { Sample.payload with
    name := "next"
    nameLength := by decide
    nameCharacters := by simp }

/-- Alice creates two environments, the second one some microseconds after the first. -/
def twoCreated (elapsed : Nat) : List Occurrence :=
  Sample.create 0 1 ++ .ambient (.tick elapsed) ::
    .ambient (.request (.create "alice" nextPayload)) :: Sample.succeed 1 2 ++
    .advance 1 (.fresh (Sample.envId 2)) :: Sample.succeed 1 2

/-- The creation instants of Alice's rows. -/
def instants (config : System) : List Time :=
  (config.state.db.owned "alice" none).map Environment.createdAt

end Listing

end Provisioner
