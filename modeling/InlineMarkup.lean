import InlineMarkup.Main
import InlineMarkup.Store.Memory
import InlineMarkup.Proofs.Segment.Dissolve
import InlineMarkup.Proofs.Html.Rendering
import InlineMarkup.Proofs.Authoring.Clash
import InlineMarkup.Proofs.Segment.Shape
import InlineMarkup.Proofs.Segment.Nesting
import InlineMarkup.Proofs.Authoring.Drafts
import InlineMarkup.Proofs.Authoring.Atomic
import InlineMarkup.Proofs.Authoring.Reported
import InlineMarkup.Proofs.Segment.Unused
import InlineMarkup.Proofs.Preview.Shown
import InlineMarkup.Proofs.Store.Stopped
import InlineMarkup.Proofs.Style
import InlineMarkup.Proofs.Authoring.Interleaved
import InlineMarkup.Proofs.CommandLine.Settings
import InlineMarkup.Proofs.Settings.Loaded
import InlineMarkup.Proofs.Registry.Contents
import InlineMarkup.Proofs.Authoring.Decided
import InlineMarkup.Proofs.Segment.Idle
import InlineMarkup.Proofs.Segment.Course
import InlineMarkup.Proofs.Keyword
import InlineMarkup.Proofs.Record
import InlineMarkup.Proofs.Color.Channels
import InlineMarkup.Proofs.CommandLine.Options
import InlineMarkup.Proofs.Delimiters
import InlineMarkup.Proofs.Segment.Copies
import InlineMarkup.Proofs.Segment.Leftmost
