import Temporaless.Storage.DueExact
import Temporaless.Storage.DueRace
import Temporaless.Workflow.CacheRace
import Temporaless.Adapters.ScanExact
import Temporaless.Adapters.CronExact
import Temporaless.Storage.LatestMax
import Temporaless.Python.Interchange
import Temporaless.Python.ScanRace
import Temporaless.Python.EventOnce
import Temporaless.Python.TimerCrash
import Temporaless.Visualization.ProjectionExact
import Temporaless.Console.PageTokens
import Temporaless.IndexStore.DueTimers
import Temporaless.IndexStore.Sweep
import Temporaless.Workflow.FanOut
import Temporaless.Inspection.Progress
import Temporaless.Python.Retry
import Temporaless.Console.JWKS
import Temporaless.Adapters.Backfill
import Temporaless.Python.Pending
import Temporaless.Workflow.Sleep
