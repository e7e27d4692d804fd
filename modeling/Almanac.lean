import Almanac.Calendar.OfValues
import Almanac.Duration.Balance
import Almanac.Proofs.CutDay
import Almanac.Proofs.DateDifference
import Almanac.Proofs.DayOfMonth
import Almanac.Proofs.DayReached
import Almanac.Proofs.DurationValue
import Almanac.Proofs.EntryPaths
import Almanac.Proofs.Grammar.Alphabet
import Almanac.Proofs.Grammar.CalendarNamed
import Almanac.Proofs.Grammar.Suffixed
import Almanac.Proofs.Hebrew.Estimate
import Almanac.Proofs.Hebrew.Weekday
import Almanac.Proofs.Iso.RangeEnds
import Almanac.Proofs.Iso.Refinement
import Almanac.Proofs.Merge
import Almanac.Proofs.Monotone
import Almanac.Proofs.Patch
import Almanac.Proofs.Regulated
import Almanac.Proofs.Reported.Operations
import Almanac.Proofs.Reread
import Almanac.Proofs.RoundTrip
import Almanac.Proofs.Rounding.ExactMultiple
import Almanac.Proofs.Rounding.Nearest
import Almanac.Proofs.SearchStart
import Almanac.Proofs.Spelling
import Almanac.Proofs.Translation
import Almanac.Proofs.YearShape
