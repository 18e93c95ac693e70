import BcIo.Walk.Bounds
import BcIo.Walk.Handover

/-!
# What a worker can still cost

What a worker has yet to do is bounded by what the directories in its hands can
still cost: a path that grows runs out of its buffer, and a listing has so many
records.  Every call of a worker that has something to do lowers this cost, with
what it puts into the queue and takes from it; one that only looks for something
to do leaves it alone.
-/

namespace BcIo.Walk

open BcIo.File
open BcIo.Foundation.Recording
open BcIo.Foundation.Automata

/-! ## What is left to do -/

/--
What a directory can cost whose path leaves so much of its buffer, where no
listing has more than `limit` records: some calls for the directory, and for
each record some calls and what a directory below can cost.
-/
def toll (limit : Nat) : Nat → Nat
  | 0 => 0
  | space + 1 => 13 + limit * (14 + toll limit space)

theorem toll_mono (limit : Nat) : Monotone (toll limit) := by
  refine monotone_nat_of_le_succ ?_
  intro space
  induction space with
  | zero => exact Nat.zero_le _
  | succ space induction =>
      rw [toll, toll]
      exact Nat.add_le_add_left
        (Nat.mul_le_mul_left limit (Nat.add_le_add_left induction 14)) 13

/-- What is left of the buffer of a path. -/
def spaceOf (path : Path) : Nat :=
  maxPathLength - path.length

/-- What the directory with this path can cost. -/
def pathToll (limit : Nat) (path : Path) : Nat :=
  toll limit (spaceOf path)

/-- What one more record of this directory can cost. -/
def recordToll (limit : Nat) (directory : Directory) : Nat :=
  14 + toll limit (spaceOf directory.path - 1)

/-- What an open directory can still cost, after so many reads. -/
def OpenListing.toll (limit : Nat) (listing : OpenListing) : Nat :=
  6 + (limit - listing.reads) * recordToll limit listing.directory

/-- What a worker can still cost on account of the point it stands at. -/
def Point.toll (limit : Nat) : Point → Nat
  | .starting => 4
  | .abandoning => 2
  | .flag (.enter directory) => 1 + pathToll limit directory.path
  | .flag .read => 5
  | .flag .turn => 0
  | .flag .result => 1
  | .stop (.enter directory) => 2 + pathToll limit directory.path
  | .stop .read => 6
  | .stop .turn => 0
  | .stop .result => 2
  | .popping => 0
  | .surveying => 0
  | .finishing => 1
  | .opening directory => pathToll limit directory.path
  | .entered => 6
  | .allocating => 0
  | .reading => 4
  | .inquiring _ childPath _ => 14 + pathToll limit childPath
  | .filtering entry => 13 + pathToll limit entry.directory.path
  | .skipping => 6
  | .counting entry => 12 + pathToll limit entry.directory.path
  | .visiting entry => 11 + pathToll limit entry.directory.path
  | .failing => 2
  | .deciding entry => 10 + pathToll limit entry.directory.path
  | .raising directory => 9 + pathToll limit directory.path
  | .pushing directory => 8 + pathToll limit directory.path
  | .undoing directory => 3 + pathToll limit directory.path
  | .inlining directory => 2 + pathToll limit directory.path
  | .charging _ .again => 7
  | .charging _ .close => 3
  | .charging _ .leave => 7
  | .charging _ .abandon => 3
  | .telling _ .again => 6
  | .telling _ .close => 2
  | .telling _ .leave => 6
  | .telling _ .abandon => 1
  | .closing => 1
  | .done => 0

/-- What a worker can still cost. -/
def Conduct.toll (limit : Nat) (conduct : Conduct) : Nat :=
  (conduct.listings.map (OpenListing.toll limit)).sum +
    conduct.point.toll limit

/-- What a queued directory can cost. -/
def queueToll (limit : Nat) (directory : Directory) : Nat :=
  2 + pathToll limit directory.path

/-- A worker that only looks whether there is something to do, or is done. -/
def Point.Idle : Point → Prop
  | .flag .turn => True
  | .stop .turn => True
  | .popping => True
  | .surveying => True
  | .done => True
  | _ => False

/-- How many outstanding directories a worker is accountable for. -/
def Point.burden : Point → Nat
  | .starting => 0
  | .abandoning => 0
  | .flag .turn => 0
  | .flag .result => 0
  | .stop .turn => 0
  | .stop .result => 0
  | .popping => 0
  | .surveying => 0
  | .charging _ .abandon => 0
  | .telling _ .abandon => 0
  | .done => 0
  | .pushing _ => 2
  | .undoing _ => 2
  | _ => 1

/-- The directories a worker deals with can be reached. -/
def Point.Fits (config : Config) (listings : List OpenListing) :
    Point → Prop
  | .flag (.enter directory) => Reached config directory
  | .stop (.enter directory) => Reached config directory
  | .opening directory => Reached config directory
  | .raising directory => Reached config directory
  | .pushing directory => Reached config directory
  | .undoing directory => Reached config directory
  | .inlining directory => Reached config directory
  | .filtering entry => Reached config entry.directory
  | .counting entry => Reached config entry.directory
  | .visiting entry => Reached config entry.directory
  | .deciding entry => Reached config entry.directory
  | .inquiring dirent childPath _ =>
      ∀ listing ∈ listings.head?,
        pathJoin maxPathLength listing.directory.path dirent.name.bytes =
          some childPath
  | .allocating => False
  | _ => True

structure Conduct.Fits (config : Config) (conduct : Conduct) : Prop where
  listings : ∀ listing ∈ conduct.listings, Reached config listing.directory
  point : conduct.point.Fits config conduct.listings

section Tolls

variable {config : Config} {limit : Nat} {directory : Directory}
  {entry : Entry} {listings : List OpenListing}

/-- What a directory costs: some calls, and its records. -/
theorem pathToll_eq (reached : Reached config directory) :
    pathToll limit directory.path =
      13 + limit * recordToll limit directory := by
  have short := reached.short
  have positive : 0 < maxPathLength := by decide
  have some_ :
      spaceOf directory.path = (spaceOf directory.path - 1) + 1 := by
    unfold spaceOf
    omega
  rw [pathToll, some_, toll, recordToll]

theorem pathToll_ge (reached : Reached config directory) :
    13 ≤ pathToll limit directory.path := by
  rw [pathToll_eq reached]
  exact Nat.le_add_right _ _

/-- A record pays for the directory it stands for. -/
theorem pathToll_offspring (reached : Reached config directory)
    (offspring : Offspring directory entry) :
    14 + pathToll limit entry.directory.path ≤
      recordToll limit directory := by
  have longer := (reached.child offspring).2.2
  have less :
      spaceOf entry.directory.path ≤ spaceOf directory.path - 1 := by
    unfold spaceOf
    omega
  exact Nat.add_le_add_left (toll_mono limit less) 14

/--
A point that a worker may go to, where it can cost no more than `most` and is
accountable for `burden` directories.
-/
structure Affords (config : Config) (limit : Nat)
    (listings : List OpenListing) (most burden : Nat) (point : Point) :
    Prop where
  fits : point.Fits config listings
  toll : point.toll limit ≤ most
  burden : point.burden = burden

theorem Affords.mono {most more burden : Nat} {point : Point}
    (affords : Affords config limit listings most burden point)
    (le : most ≤ more) : Affords config limit listings more burden point :=
  ⟨affords.fits, Nat.le_trans affords.toll le, affords.burden⟩

theorem affords_leaving :
    Affords config limit listings 5 1 (leaving true listings) := by
  cases listings with
  | nil => exact ⟨trivial, Nat.le_of_ble_eq_true rfl, rfl⟩
  | cons listing outer => exact ⟨trivial, Nat.le_refl _, rfl⟩

theorem affords_turning :
    Affords config limit listings 0 0 (turning config) := by
  unfold turning
  split <;> exact ⟨trivial, Nat.le_refl _, rfl⟩

theorem idle_turning : (turning config).Idle := by
  unfold turning
  split <;> trivial

theorem affords_sequel {sequel : Sequel} (goesOn : sequel ≠ .abandon) :
    Affords config limit listings 5 1 (sequel.point true listings) := by
  cases sequel with
  | again => exact ⟨trivial, Nat.le_refl _, rfl⟩
  | close => exact ⟨trivial, Nat.le_of_ble_eq_true rfl, rfl⟩
  | leave => exact affords_leaving
  | abandon => exact absurd rfl goesOn

theorem affords_afterVisit (reached : Reached config entry.directory) :
    Affords config limit listings
      (10 + pathToll limit entry.directory.path) 1
      (afterVisit config true entry) := by
  unfold afterVisit
  split
  · exact ⟨reached, Nat.le_refl _, rfl⟩
  · exact ⟨reached, Nat.add_le_add_right (by decide) _, rfl⟩

theorem affords_admitting (reached : Reached config entry.directory) :
    Affords config limit listings
      (12 + pathToll limit entry.directory.path) 1
      (admitting config true entry) := by
  have other :
      Affords config limit listings
        (12 + pathToll limit entry.directory.path) 1 (.flag .read) :=
    ⟨trivial, Nat.le_add_right_of_le (Nat.le_of_ble_eq_true rfl), rfl⟩
  unfold admitting
  split
  · exact ⟨reached, Nat.le_refl _, rfl⟩
  · split
    · exact ⟨reached, Nat.add_le_add_right (by decide) _, rfl⟩
    · exact (affords_afterVisit reached).mono
        (Nat.add_le_add_right (by decide) _)
  · exact other
  · exact other

theorem affords_presenting (reached : Reached config entry.directory) :
    Affords config limit listings
      (13 + pathToll limit entry.directory.path) 1
      (presenting config true entry) := by
  unfold presenting
  split
  · exact ⟨reached, Nat.le_refl _, rfl⟩
  · exact (affords_admitting reached).mono
      (Nat.add_le_add_right (by decide) _)

/-- A record pays for what is done about it. -/
theorem affords_receiving {reads : Nat} {outer : List OpenListing}
    (reached : Reached config directory) (dirent : Dirent) :
    Affords config limit (⟨directory, reads⟩ :: outer)
      (recordToll limit directory) 1
      (receiving config true directory dirent) := by
  have fixed : 14 ≤ recordToll limit directory := Nat.le_add_right _ _
  unfold receiving
  split
  · exact ⟨trivial, Nat.le_trans (Nat.le_of_ble_eq_true rfl) fixed, rfl⟩
  · cases joined :
        pathJoin maxPathLength directory.path dirent.name.bytes with
    | none =>
        exact ⟨trivial, Nat.le_trans (Nat.le_of_ble_eq_true rfl) fixed, rfl⟩
    | some childPath =>
        have offspring :
            ∀ resolved,
              Offspring directory (entryOf directory childPath resolved) :=
          fun resolved => ⟨dirent.name, joined, rfl, rfl⟩
        have inquires :
            ∀ noFollow,
              Affords config limit (⟨directory, reads⟩ :: outer)
                (recordToll limit directory) 1
                (.inquiring dirent childPath noFollow) := by
          intro noFollow
          have pays :=
            @pathToll_offspring config limit directory _ reached
              (offspring (resolvedByType dirent))
          rw [path_of_offspring (offspring _)] at pays
          refine ⟨?_, pays, rfl⟩
          intro listing isHead
          cases isHead
          exact joined
        dsimp only
        split
        · exact inquires true
        · split
          · exact inquires _
          · have pays :=
              @pathToll_offspring config limit directory _ reached
                (offspring (resolvedByType dirent))
            refine (affords_presenting
              (reached.child (offspring _)).1).mono ?_
            omega

end Tolls

/-! ## One call -/

/--
What a call of a worker does to what is left: it lowers it, with the queue taken
into account, or the worker was idle and still is.
-/
structure Advances (config : Config) (limit : Nat) (conduct : Conduct)
    (call : Answered Op Op.Response) (after : Conduct) : Prop where
  fits : after.Fits config
  burden :
    (after.point.burden : Int) + putBy (fun _ => 1) call + lowering call.1 =
      conduct.point.burden + takenBy (fun _ => 1) call
  toll :
    after.toll limit + putBy (queueToll limit) call <
        conduct.toll limit + takenBy (queueToll limit) call ∨
      (conduct.point.Idle ∧ after.point.Idle ∧
        after.toll limit + putBy (queueToll limit) call =
          conduct.toll limit + takenBy (queueToll limit) call)

section Calls

variable {config : Config} {limit : Nat} {listings : List OpenListing}
  {point next : Point} {call : Answered Op Op.Response}

/-- A call that has nothing to do with the queue or its count. -/
structure Unqueued (limit : Nat) (call : Answered Op Op.Response) : Prop where
  put : putBy (queueToll limit) call = 0
  taken : takenBy (queueToll limit) call = 0
  balance :
    putBy (fun _ => (1 : Int)) call + lowering call.1 =
      takenBy (fun _ => 1) call

theorem advances_of {before : List OpenListing} {most burden : Nat}
    (listed : ∀ listing ∈ listings, Reached config listing.directory)
    (affords : Affords config limit listings most burden next)
    (less :
      (listings.map (OpenListing.toll limit)).sum + most +
          putBy (queueToll limit) call <
        (before.map (OpenListing.toll limit)).sum + point.toll limit +
          takenBy (queueToll limit) call)
    (balance :
      (burden : Int) + putBy (fun _ => 1) call + lowering call.1 =
        point.burden + takenBy (fun _ => 1) call) :
    Advances config limit ⟨before, point⟩ call ⟨listings, next⟩ := by
  refine ⟨⟨listed, affords.fits⟩, ?_, Or.inl ?_⟩
  · rw [affords.burden]
    exact balance
  · refine Nat.lt_of_le_of_lt ?_ less
    exact Nat.add_le_add_right (Nat.add_le_add_left affords.toll _) _

/-- The same directories stay open. -/
theorem advances_of_same {most burden : Nat}
    (listed : ∀ listing ∈ listings, Reached config listing.directory)
    (affords : Affords config limit listings most burden next)
    (less :
      most + putBy (queueToll limit) call <
        point.toll limit + takenBy (queueToll limit) call)
    (balance :
      (burden : Int) + putBy (fun _ => 1) call + lowering call.1 =
        point.burden + takenBy (fun _ => 1) call) :
    Advances config limit ⟨listings, point⟩ call ⟨listings, next⟩ := by
  refine advances_of listed affords ?_ balance
  rw [Nat.add_assoc, Nat.add_assoc]
  exact Nat.add_lt_add_left less _

theorem advances_of_affords {most : Nat}
    (listed : ∀ listing ∈ listings, Reached config listing.directory)
    (unqueued : Unqueued limit call)
    (affords : Affords config limit listings most point.burden next)
    (less : most < point.toll limit) :
    Advances config limit ⟨listings, point⟩ call ⟨listings, next⟩ := by
  refine advances_of_same listed affords ?_ ?_
  · rw [unqueued.put, unqueued.taken]
    exact less
  · rw [add_assoc, unqueued.balance]

/-- An idle worker costs nothing, and has nothing to account for. -/
theorem affords_idle (idle : point.Idle) :
    Affords config limit listings 0 0 point := by
  cases point with
  | flag errand =>
      cases errand with
      | turn => exact ⟨trivial, Nat.le_refl _, rfl⟩
      | _ => exact idle.elim
  | stop errand =>
      cases errand with
      | turn => exact ⟨trivial, Nat.le_refl _, rfl⟩
      | _ => exact idle.elim
  | popping => exact ⟨trivial, Nat.le_refl _, rfl⟩
  | surveying => exact ⟨trivial, Nat.le_refl _, rfl⟩
  | done => exact ⟨trivial, Nat.le_refl _, rfl⟩
  | _ => exact idle.elim

theorem advances_idle
    (listed : ∀ listing ∈ listings, Reached config listing.directory)
    (unqueued : Unqueued limit call) (idle : point.Idle) (stays : next.Idle) :
    Advances config limit ⟨listings, point⟩ call ⟨listings, next⟩ := by
  have before := @affords_idle config limit listings _ idle
  have after := @affords_idle config limit listings _ stays
  refine ⟨⟨listed, after.fits⟩, ?_, Or.inr ⟨idle, stays, ?_⟩⟩
  · change (next.burden : Int) + _ + _ = (point.burden : Int) + _
    rw [after.burden, before.burden, add_assoc, unqueued.balance]
  · have none_ := Nat.le_zero.mp before.toll
    have noneAfter := Nat.le_zero.mp after.toll
    rw [unqueued.put, unqueued.taken, Conduct.toll, Conduct.toll, none_,
      noneAfter]

theorem unflagged_worker (errand : Errand) :
    unflagged config true errand = proceeding errand := by
  simp [unflagged]

variable {listing : Path → Nat}
  (few : ∀ directory, Reached config directory →
    listing directory.text ≤ limit)
  (listed : ∀ listing ∈ listings, Reached config listing.directory)

include listed

/-- Looking whether the walk goes on. -/
theorem advances_flag {errand : Errand}
    (fits : (Point.flag errand).Fits config listings) (failed : Bool) :
    Advances config limit ⟨listings, .flag errand⟩
      ⟨.shared .loadVisitFailed, failed⟩
      ⟨listings,
        if failed then breakingOff true listings errand
        else unflagged config true errand⟩ := by
  have unqueued : Unqueued limit ⟨.shared .loadVisitFailed, failed⟩ :=
    ⟨rfl, rfl, rfl⟩
  rw [unflagged_worker]
  cases errand with
  | enter directory =>
      have reached : Reached config directory := fits
      have costly := @pathToll_ge config limit _ reached
      have enters :
          (Point.flag (.enter directory)).toll limit =
            1 + pathToll limit directory.path := rfl
      cases failed with
      | true =>
          exact advances_of_affords listed unqueued affords_leaving (by omega)
      | false =>
          refine advances_of_affords listed unqueued
            ⟨reached, Nat.le_refl _, rfl⟩ ?_
          change pathToll limit directory.path < _
          omega
  | read =>
      cases failed with
      | true =>
          exact advances_of_affords listed unqueued
            ⟨trivial, Nat.le_refl _, rfl⟩ (Nat.le_of_ble_eq_true rfl)
      | false =>
          exact advances_of_affords listed unqueued
            ⟨trivial, Nat.le_refl _, rfl⟩ (Nat.le_of_ble_eq_true rfl)
  | turn => cases failed <;> exact advances_idle listed unqueued trivial trivial
  | result =>
      cases failed <;>
        exact advances_of_affords listed unqueued
          ⟨trivial, Nat.le_refl _, rfl⟩ (Nat.le_of_ble_eq_true rfl)

/-- Asking whether the walk is to stop. -/
theorem advances_stop {errand : Errand}
    (fits : (Point.stop errand).Fits config listings) (asked : Bool) :
    Advances config limit ⟨listings, .stop errand⟩
      ⟨.outside .shouldStopCheck, asked⟩
      ⟨listings,
        if asked then breakingOff true listings errand
        else .flag errand⟩ := by
  have unqueued : Unqueued limit ⟨.outside .shouldStopCheck, asked⟩ :=
    ⟨rfl, rfl, rfl⟩
  cases errand with
  | enter directory =>
      have reached : Reached config directory := fits
      have costly := @pathToll_ge config limit _ reached
      have enters :
          (Point.stop (.enter directory)).toll limit =
            2 + pathToll limit directory.path := rfl
      cases asked with
      | true =>
          exact advances_of_affords listed unqueued affords_leaving
            (by omega)
      | false =>
          exact advances_of_affords listed unqueued
            ⟨reached, Nat.le_refl _, rfl⟩
            (Nat.add_lt_add_right (by decide) _)
  | turn =>
      cases asked <;> exact advances_idle listed unqueued trivial trivial
  | _ =>
      cases asked <;>
        exact advances_of_affords listed unqueued
          ⟨trivial, Nat.le_refl _, rfl⟩ (Nat.le_of_ble_eq_true rfl)

/-- Reporting a failure. -/
theorem advances_charging (report : Report) (sequel : Sequel) :
    Advances config limit ⟨listings, .charging report sequel⟩
      ⟨.shared (.count .errorsEncountered), ()⟩
      ⟨listings, charged config true listings report sequel⟩ := by
  have unqueued :
      Unqueued limit ⟨.shared (.count .errorsEncountered), ()⟩ :=
    ⟨rfl, rfl, rfl⟩
  cases sequel with
  | abandon =>
      exact advances_of_affords listed unqueued
        ⟨trivial, Nat.le_refl _, rfl⟩ (Nat.le_of_ble_eq_true rfl)
  | close =>
      rw [charged, if_neg nofun]
      split <;>
        exact advances_of_affords listed unqueued
          ⟨trivial, Nat.le_refl _, rfl⟩ (Nat.le_of_ble_eq_true rfl)
  | _ =>
      rw [charged, if_neg nofun]
      split
      · exact advances_of_affords listed unqueued
          ⟨trivial, Nat.le_refl _, rfl⟩ (Nat.le_of_ble_eq_true rfl)
      · exact advances_of_affords listed unqueued (affords_sequel nofun)
          (Nat.le_of_ble_eq_true rfl)

theorem advances_telling (report : Report) (sequel : Sequel) :
    Advances config limit ⟨listings, .telling report sequel⟩
      ⟨.outside (.onError report.path report.stage report.errno), ()⟩
      ⟨listings, sequel.point true listings⟩ := by
  have unqueued :
      Unqueued limit
        ⟨.outside (.onError report.path report.stage report.errno), ()⟩ :=
    ⟨rfl, rfl, rfl⟩
  cases sequel with
  | leave =>
      exact advances_of_affords listed unqueued affords_leaving
        (Nat.le_of_ble_eq_true rfl)
  | _ =>
      exact advances_of_affords listed unqueued
        ⟨trivial, Nat.le_refl _, rfl⟩ (Nat.le_of_ble_eq_true rfl)

/-- Opening a directory. -/
theorem advances_opening {directory : Directory}
    (reached : Reached config directory)
    (opened : Except Errno Nat) :
    Advances config limit ⟨listings, .opening directory⟩
      ⟨.outside (.openDirectory directory.text (!config.followSymlinks)),
        opened⟩
      ((Conduct.mk listings (.opening directory)).after config true
        (.outside (.openDirectory directory.text (!config.followSymlinks)))
        opened) := by
  have costs :
      (Point.opening directory).toll limit =
        13 + limit * recordToll limit directory :=
    pathToll_eq reached
  cases opened with
  | error errno =>
      refine advances_of_affords listed ⟨rfl, rfl, rfl⟩
        ⟨trivial, Nat.le_refl _, rfl⟩ ?_
      change 7 < _
      omega
  | ok entries =>
      have both :
          ∀ listing ∈ (⟨directory, 0⟩ : OpenListing) :: listings,
            Reached config listing.directory :=
        List.forall_mem_cons.mpr ⟨reached, listed⟩
      refine advances_of both ⟨trivial, Nat.le_refl _, rfl⟩ ?_ rfl
      change
        6 + limit * recordToll limit directory +
            (listings.map (OpenListing.toll limit)).sum + 6 + 0 <
          (listings.map (OpenListing.toll limit)).sum +
            (Point.opening directory).toll limit + 0
      omega

/-- Leaving a directory. -/
theorem advances_closing {innermost : OpenListing} :
    Advances config limit ⟨innermost :: listings, .closing⟩
      ⟨.outside (.closeDirectory innermost.directory.text), ()⟩
      ⟨listings, leaving true listings⟩ := by
  refine advances_of listed affords_leaving ?_ rfl
  change
    (listings.map (OpenListing.toll limit)).sum + 5 + 0 <
      6 + (limit - innermost.reads) *
            recordToll limit innermost.directory +
          (listings.map (OpenListing.toll limit)).sum + 1 + 0
  omega

include few

/-- Reading a record. -/
theorem advances_reading {innermost : OpenListing}
    (reached : Reached config innermost.directory) {result : NextEntry}
    (expected : Expected config listing
      (.outside (.direntReaderNext innermost.directory.text
        innermost.reads)) result) :
    Advances config limit ⟨innermost :: listings, .reading⟩
      ⟨.outside (.direntReaderNext innermost.directory.text
        innermost.reads), result⟩
      ((Conduct.mk (innermost :: listings) .reading).after config true
        (.outside (.direntReaderNext innermost.directory.text
          innermost.reads)) result) := by
  rcases innermost with ⟨directory, reads⟩
  have both :
      ∀ listing ∈ (⟨directory, reads + 1⟩ : OpenListing) :: listings,
        Reached config listing.directory :=
    List.forall_mem_cons.mpr ⟨reached, listed⟩
  have fewer :
      (limit - (reads + 1)) * recordToll limit directory ≤
        (limit - reads) * recordToll limit directory :=
    Nat.mul_le_mul_right _ (by omega)
  -- without a record the directory is closed
  have ends :
      ∀ most, most < 4 →
        (((⟨directory, reads + 1⟩ : OpenListing) :: listings).map
            (OpenListing.toll limit)).sum + most + 0 <
          (((⟨directory, reads⟩ : OpenListing) :: listings).map
            (OpenListing.toll limit)).sum + 4 + 0 := by
    intro most small
    simp only [List.map_cons, List.sum_cons, OpenListing.toll]
    omega
  cases result with
  | failed lastErrno =>
      exact advances_of both ⟨trivial, Nat.le_refl _, rfl⟩
        (ends 3 (by decide)) rfl
  | finished =>
      exact advances_of both ⟨trivial, Nat.le_refl _, rfl⟩
        (ends 1 (by decide)) rfl
  | entry dirent =>
      have inside : reads < limit :=
        Nat.lt_of_lt_of_le (expected dirent rfl) (few directory reached)
      have paid :
          (limit - reads) * recordToll limit directory =
            (limit - (reads + 1)) * recordToll limit directory +
              recordToll limit directory := by
        rw [← Nat.succ_mul]
        congr 1
        omega
      refine advances_of both (affords_receiving reached dirent) ?_ rfl
      change
        6 + (limit - (reads + 1)) * recordToll limit directory +
              (listings.map (OpenListing.toll limit)).sum +
            recordToll limit directory + 0 <
          6 + (limit - reads) * recordToll limit directory +
            (listings.map (OpenListing.toll limit)).sum + 4 + 0
      omega

end Calls

/--
Every call of a worker advances it, where listings are short and what is popped
can be reached.
-/
theorem advances_call {config : Config} {limit : Nat}
    {listing : Path → Nat}
    (few : ∀ directory, Reached config directory →
      listing directory.text ≤ limit)
    {conduct : Conduct} {call : Answered Op Op.Response}
    (fits : conduct.Fits config)
    (isNext : conduct.op config = some call.1)
    (expected : Expected config listing call.1 call.2) :
    Advances config limit conduct call
      (conduct.after config true call.1 call.2) := by
  rcases conduct with ⟨listings, point⟩
  rcases call with ⟨op, response⟩
  rcases fits with ⟨listed, fits⟩
  change ∀ listing ∈ listings, _ at listed
  cases point with
  | starting =>
      cases isNext
      cases response with
      | true =>
          exact advances_of_affords listed ⟨rfl, rfl, rfl⟩ affords_turning
            (Nat.le_of_ble_eq_true rfl)
      | false =>
          exact advances_of_affords listed ⟨rfl, rfl, rfl⟩
            ⟨trivial, Nat.le_refl _, rfl⟩ (Nat.le_of_ble_eq_true rfl)
  | abandoning =>
      cases isNext
      change Advances config limit _ _
        ⟨listings, if config.hasOnError then _ else _⟩
      split <;>
        exact advances_of_affords listed ⟨rfl, rfl, rfl⟩
          ⟨trivial, Nat.le_refl _, rfl⟩ (Nat.le_of_ble_eq_true rfl)
  | flag errand =>
      cases isNext
      exact advances_flag listed fits response
  | stop errand =>
      cases isNext
      exact advances_stop listed fits response
  | popping =>
      cases isNext
      cases response with
      | none => exact advances_idle listed ⟨rfl, rfl, rfl⟩ trivial trivial
      | some directory =>
          have reached : Reached config directory := expected directory rfl
          refine advances_of_same listed ⟨reached, Nat.le_refl _, rfl⟩ ?_ rfl
          change
            1 + pathToll limit directory.path + 0 <
              0 + (2 + pathToll limit directory.path)
          omega
  | surveying =>
      cases isNext
      change Advances config limit _ _
        ⟨listings, if response ≠ 0 then turning config else .done⟩
      split
      · exact advances_idle listed ⟨rfl, rfl, rfl⟩ trivial idle_turning
      · exact advances_idle listed ⟨rfl, rfl, rfl⟩ trivial trivial
  | finishing =>
      cases isNext
      exact advances_of_same listed affords_turning
        (Nat.le_of_ble_eq_true rfl) rfl
  | opening directory =>
      cases isNext
      exact advances_opening listed fits response
  | entered =>
      cases isNext
      exact advances_of_affords listed ⟨rfl, rfl, rfl⟩
        ⟨trivial, Nat.le_refl _, rfl⟩ (Nat.le_of_ble_eq_true rfl)
  | allocating => exact fits.elim
  | reading =>
      cases listings with
      | nil => cases isNext
      | cons innermost outer =>
          rw [List.forall_mem_cons] at listed
          cases isNext
          exact advances_reading few listed.2 listed.1 expected
  | inquiring dirent childPath noFollow =>
      cases listings with
      | nil => cases isNext
      | cons innermost outer =>
          cases isNext
          have joined := fits innermost rfl
          have reached := (List.forall_mem_cons.mp listed).1
          cases response with
          | error errno =>
              refine advances_of_affords listed ⟨rfl, rfl, rfl⟩
                ⟨trivial, Nat.le_refl _, rfl⟩ ?_
              change 7 < 14 + _
              omega
          | ok stat =>
              have offspring :
                  Offspring innermost.directory
                    (entryOf innermost.directory childPath
                      (resolvedByStatus config dirent stat)) :=
                ⟨dirent.name, joined, rfl, rfl⟩
              have presents :=
                @affords_presenting config limit _ (innermost :: outer)
                  (reached.child offspring).1
              rw [path_of_offspring offspring] at presents
              exact advances_of_affords listed ⟨rfl, rfl, rfl⟩ presents
                (Nat.add_lt_add_right (by decide) _)
  | filtering entry =>
      cases isNext
      cases response with
      | true =>
          exact advances_of_affords listed ⟨rfl, rfl, rfl⟩
            (affords_admitting fits) (Nat.add_lt_add_right (by decide) _)
      | false =>
          refine advances_of_affords listed ⟨rfl, rfl, rfl⟩
            ⟨trivial, Nat.le_refl _, rfl⟩ ?_
          change 6 < 13 + _
          omega
  | skipping =>
      cases isNext
      exact advances_of_affords listed ⟨rfl, rfl, rfl⟩
        ⟨trivial, Nat.le_refl _, rfl⟩ (Nat.le_of_ble_eq_true rfl)
  | counting entry =>
      cases isNext
      exact advances_of_affords listed ⟨rfl, rfl, rfl⟩
        ⟨fits, Nat.le_refl _, rfl⟩ (Nat.add_lt_add_right (by decide) _)
  | visiting entry =>
      cases isNext
      cases response with
      | false =>
          refine advances_of_affords listed ⟨rfl, rfl, rfl⟩
            ⟨trivial, Nat.le_refl _, rfl⟩ ?_
          change 2 < 11 + _
          omega
      | true =>
          change Advances config limit _ _
            ⟨listings,
              if entry.kind = .file then .flag .read
              else afterVisit config true entry⟩
          split
          · refine advances_of_affords listed ⟨rfl, rfl, rfl⟩
              ⟨trivial, Nat.le_refl _, rfl⟩ ?_
            change 5 < 11 + _
            omega
          · exact advances_of_affords listed ⟨rfl, rfl, rfl⟩
              (affords_afterVisit fits)
              (Nat.add_lt_add_right (by decide) _)
  | failing =>
      cases isNext
      exact advances_of_affords listed ⟨rfl, rfl, rfl⟩
        ⟨trivial, Nat.le_refl _, rfl⟩ (Nat.le_of_ble_eq_true rfl)
  | deciding entry =>
      cases isNext
      cases response with
      | true =>
          exact advances_of_affords listed ⟨rfl, rfl, rfl⟩
            ⟨fits, Nat.le_refl _, rfl⟩ (Nat.add_lt_add_right (by decide) _)
      | false =>
          refine advances_of_affords listed ⟨rfl, rfl, rfl⟩
            ⟨trivial, Nat.le_refl _, rfl⟩ ?_
          change 5 < 10 + _
          omega
  | raising directory =>
      cases isNext
      refine advances_of_same listed ⟨fits, Nat.le_refl _, rfl⟩ ?_ rfl
      change
        8 + pathToll limit directory.path <
          9 + pathToll limit directory.path
      omega
  | pushing directory =>
      cases isNext
      cases response with
      | true =>
          refine advances_of_same listed ⟨trivial, Nat.le_refl _, rfl⟩ ?_ rfl
          change
            5 + (2 + pathToll limit directory.path) <
              8 + pathToll limit directory.path + 0
          omega
      | false =>
          exact advances_of_affords listed ⟨rfl, rfl, rfl⟩
            ⟨fits, Nat.le_refl _, rfl⟩ (Nat.add_lt_add_right (by decide) _)
  | undoing directory =>
      cases isNext
      refine advances_of_same listed ⟨fits, Nat.le_refl _, rfl⟩ ?_ rfl
      change
        2 + pathToll limit directory.path <
          3 + pathToll limit directory.path
      omega
  | inlining directory =>
      cases isNext
      have costly := @pathToll_ge config limit _ fits
      cases response with
      | true =>
          exact advances_of_affords listed ⟨rfl, rfl, rfl⟩
            ⟨fits, Nat.le_refl _, rfl⟩ (Nat.add_lt_add_right (by decide) _)
      | false =>
          refine advances_of_affords listed ⟨rfl, rfl, rfl⟩
            ⟨trivial, Nat.le_refl _, rfl⟩ ?_
          change 7 < 2 + pathToll limit directory.path
          omega
  | charging report sequel =>
      cases isNext
      exact advances_charging listed report sequel
  | telling report sequel =>
      cases isNext
      exact advances_telling listed report sequel
  | closing =>
      cases listings with
      | nil => cases isNext
      | cons innermost outer =>
          cases isNext
          exact advances_closing (List.forall_mem_cons.mp listed).2
  | done => cases isNext

end BcIo.Walk
