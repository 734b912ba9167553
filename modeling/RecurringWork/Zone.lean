import RecurringWork.Calendar

/-!
# RecurringWork.Zone

**Time zones as data.** A zone says how far its clocks are ahead of universal time at
each instant (`Zone.offsetAt`); all else follows from that. A clock face is shown
once, twice or not at all, and `Zone.instant?` finds the first instant at which a
zone shows it: the instant that a face denotes under some offset is kept if that
offset is the one in force there, and a larger offset makes for an earlier instant.

A zone with summer time is described by two turns a year, each on the first, second
or last Sunday of a month, and by the offsets within and outside the span between
them. That covers both hemispheres, since the span may hold either the summer or the
winter. A zone that changed its mind once is a list of instants.
-/

namespace RecurringWork

/-- The Sundays of a month that turns are fixed to. -/
inductive Sunday
  | first
  | second
  | last
  deriving DecidableEq, Repr

/-- The day of the month on which a Sunday falls. -/
def Sunday.day (s : Sunday) (year : Int) (month : Nat) : Nat :=
  let firstDay := (8 - (Date.weekday ⟨year, month, 1⟩)) % 7 + 1
  match s with
  | .first => firstDay
  | .second => firstDay + 7
  | .last => firstDay + 7 * ((Date.monthLength year month - firstDay) / 7)

/-- A yearly change of offset: so many seconds after midnight, universal time, of a
Sunday. The number is negative where the change comes before that midnight. -/
structure Turn where
  month : Nat
  sunday : Sunday
  seconds : Int
  deriving DecidableEq, Repr

/-- The instant of the turn in a year, in seconds. -/
def Turn.second (t : Turn) (year : Int) : Int :=
  Date.toDays ⟨year, t.month, t.sunday.day year t.month⟩ * Civil.secondsPerDay + t.seconds

/-- How clocks are set, offsets in seconds ahead of universal time. -/
inductive Zone
  /-- Always the same. -/
  | fixed (offset : Int)
  /-- `inside` from the turn `start` to the turn `stop` of the same year, `outside`
  for the rest of it. -/
  | yearly (outside inside : Int) (start stop : Turn)
  /-- `initial` up to the first change, then as each change says. -/
  | changes (initial : Int) (later : List (Int × Int))
  deriving DecidableEq, Repr

namespace Zone

/-- The offset in force at an instant given in seconds. -/
def offsetAt : Zone → Int → Int
  | .fixed offset, _ => offset
  | .yearly outside inside start stop, t =>
      let year := (Civil.ofSeconds t).date.year
      if start.second year ≤ t ∧ t < stop.second year then inside else outside
  | .changes initial later, t =>
      later.foldl (fun offset change => if change.1 ≤ t then change.2 else offset) initial

/-- The offsets that a zone uses, the largest first. -/
def offsets : Zone → List Int
  | .fixed offset => [offset]
  | .yearly outside inside _ _ => [max outside inside, min outside inside]
  | .changes initial later =>
      (initial :: later.map Prod.snd).eraseDups.mergeSort (fun a b => b ≤ a)

/-- The face that the zone's clocks show at an instant given in seconds. -/
def civilAt (z : Zone) (t : Int) : Civil := .ofSeconds (t + z.offsetAt t)

/-- The first instant, in seconds, at which the zone's clocks show `c`. There is none
for a face that a forward jump skips. -/
def instant? (z : Zone) (c : Civil) : Option Int :=
  -- Of two instants with one face the earlier one has the larger offset, tried first.
  z.offsets.findSome? fun offset =>
    let t := c.toSeconds - offset
    if z.offsetAt t = offset then some t else none

def utc : Zone := .fixed 0

/-- An offset given in hours and minutes. -/
private def ahead (hours minutes : Int) : Int := hours * 3600 + minutes * 60

/-- The zones that have a name. -/
def named : List (String × Zone) :=
  [("UTC", utc),
   ("Asia/Shanghai", .fixed (ahead 8 0)),
   ("Asia/Kolkata", .fixed (ahead 5 30)),
   ("Asia/Kathmandu", .fixed (ahead 5 45)),
   ("Etc/GMT+5", .fixed (ahead (-5) 0)),
   ("America/New_York",
    .yearly (ahead (-5) 0) (ahead (-4) 0) ⟨3, .second, ahead 7 0⟩ ⟨11, .first, ahead 6 0⟩),
   ("Europe/London",
    .yearly (ahead 0 0) (ahead 1 0) ⟨3, .last, ahead 1 0⟩ ⟨10, .last, ahead 1 0⟩),
   ("Pacific/Auckland",
    .yearly (ahead 13 0) (ahead 12 0) ⟨4, .first, ahead (-10) 0⟩ ⟨9, .last, ahead (-10) 0⟩),
   ("Australia/Lord_Howe",
    .yearly (ahead 11 0) (ahead 10 30) ⟨4, .first, ahead (-9) 0⟩ ⟨10, .first, ahead (-8) (-30)⟩),
   ("Pacific/Apia",
    .changes (ahead (-10) 0)
      [(Civil.toSeconds ⟨⟨2011, 12, 30⟩, 10, 0, 0⟩, ahead 14 0),
       (Civil.toSeconds ⟨⟨2012, 3, 31⟩, 14, 0, 0⟩, ahead 13 0),
       (Civil.toSeconds ⟨⟨2012, 9, 29⟩, 14, 0, 0⟩, ahead 14 0)])]

/-- The zone of a name. Case matters. -/
def ofName? (name : String) : Option Zone :=
  (named.find? fun z => z.1 == name).map Prod.snd

end Zone

end RecurringWork
