import Rematch.LineSearch
import Rematch.Main
import Rematch.OneShot
import Rematch.Proofs.Operation
import Rematch.Proofs.Present
import Rematch.Proofs.RegexEngine
import Rematch.Proofs.Reuse
import Rematch.Proofs.ScanOrder
import Rematch.Regex.Search
import Rematch.Version
import Rematch.Proofs.Decoding
import Rematch.Proofs.Splice
import Rematch.Proofs.ScanVisits
import Rematch.Proofs.Progress
import Rematch.Proofs.Unfold
import Rematch.Proofs.Failure
import Rematch.Proofs.Aligned
import Rematch.Proofs.Forms
import Rematch.Proofs.Wellformed
import Rematch.Proofs.UtfMode
import Rematch.Proofs.Carried
import Rematch.Proofs.Shifted
import Rematch.Proofs.SearchFrom
import Rematch.Proofs.Context
import Rematch.Proofs.Offsets
import Rematch.Proofs.Places
import Rematch.Proofs.LineGroups
import Rematch.Proofs.GroupText
import Rematch.Proofs.OneShots
import Rematch.Proofs.Views
import Rematch.Proofs.NameRecords
import Rematch.Proofs.GroupNames
import Rematch.Proofs.Notation
import Rematch.Proofs.Session
import Rematch.Proofs.FlagWords
import Rematch.Proofs.Walk
import Rematch.Proofs.TextViews
