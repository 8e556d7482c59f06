import UnifiMcp.Changeset.ZoneOrder
import UnifiMcp.Collections.SortedMap
import UnifiMcp.Changeset.Drift
import UnifiMcp.Changeset.Verification
import UnifiMcp.Changeset.CleanRollback
import UnifiMcp.Changeset.WritableFields
import UnifiMcp.Interaction.Pool
import UnifiMcp.Server.ChangeSets
import UnifiMcp.Server.TwoPerson
import UnifiMcp.Server.SiteGrants
import UnifiMcp.Tools.SiteLegs
import UnifiMcp.Server.Paging
import UnifiMcp.Changeset.Undoing
import UnifiMcp.Server.StoredPlan
import UnifiMcp.Client.WriteBodies
import UnifiMcp.Server.Settling
import UnifiMcp.Changeset.Diff
import UnifiMcp.Server.Evidence
import UnifiMcp.Server.Fingerprint
import UnifiMcp.Server.OnePending
import UnifiMcp.Changeset.LostUpdate
import UnifiMcp.Tools.ListHides
import UnifiMcp.Server.SurfaceGate
import UnifiMcp.Server.DirectCommit
import UnifiMcp.Server.Reload
import UnifiMcp.Server.ZoneCheck
import UnifiMcp.Tools.SearchReveals
import UnifiMcp.Tools.Restage
import UnifiMcp.Tools.ReportPages
import UnifiMcp.Changeset.Superseding
import UnifiMcp.Tools.Lossless
import UnifiMcp.Tools.Troubleshoot
import UnifiMcp.Tools.SearchScan
import UnifiMcp.Server.Shrink
import UnifiMcp.Tools.SingleShapes
import UnifiMcp.Tools.TopApplications
import UnifiMcp.Changeset.Coverage
import UnifiMcp.Server.Drafts
import UnifiMcp.Server.Preview
import UnifiMcp.Fixtures.Scrubbed
import UnifiMcp.Client.ErrorDetail
import UnifiMcp.Client.QueryString
import UnifiMcp.Interaction.Progress
import UnifiMcp.Server.Authority
import UnifiMcp.Server.Completion
import UnifiMcp.Interaction.Refinement
import UnifiMcp.Interaction.Restart
import UnifiMcp.Interaction.ChangeControl
import UnifiMcp.Server.ChangeControl
import UnifiMcp.Server.Receipts
import UnifiMcp.Json.Pretty
import UnifiMcp.Server.ShownPlan
import UnifiMcp.Server.Restarts
import UnifiMcp.Server.Commands
import UnifiMcp.Tools.RoundTrip
import UnifiMcp.Client.Spending
import UnifiMcp.Server.Allowance
import UnifiMcp.Interaction.Rely
import UnifiMcp.Changeset.Bystanders
import UnifiMcp.Server.Bystanders
