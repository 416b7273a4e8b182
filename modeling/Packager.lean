import Packager.Aac.Adts
import Packager.Aac.AudioConfig
import Packager.Avc.AccessUnit
import Packager.Avc.NalUnit
import Packager.Box
import Packager.Box.Walk
import Packager.Bytes
import Packager.Calendar
import Packager.CommandLine.Arguments
import Packager.CommandLine.Feed
import Packager.CommandLine.LogFilter
import Packager.CommandLine.Report
import Packager.CommandLine.Run
import Packager.Control.Event
import Packager.Control.Number
import Packager.Data
import Packager.Disk
import Packager.Disk.Volume
import Packager.Failure
import Packager.Fragment
import Packager.Gate
import Packager.Main
import Packager.Manifest.Announcement
import Packager.Manifest.Mpd
import Packager.Media
import Packager.Naming
import Packager.Number.Binary64
import Packager.Number.Literal
import Packager.Number.Shortest
import Packager.Path
import Packager.Proofs.AccessUnits
import Packager.Proofs.AdtsFrames
import Packager.Proofs.Answers
import Packager.Proofs.AudioSession
import Packager.Proofs.AudioTimeline
import Packager.Proofs.BigEndian
import Packager.Proofs.BitFields
import Packager.Proofs.Boundaries
import Packager.Proofs.BoxForest
import Packager.Proofs.Cadence
import Packager.Proofs.CodecBox
import Packager.Proofs.CodecStrings
import Packager.Proofs.Coherence
import Packager.Proofs.ControlReplies
import Packager.Proofs.CycleOutcome
import Packager.Proofs.DecoderConfig
import Packager.Proofs.Durations
import Packager.Proofs.Emission
import Packager.Proofs.EventMembers
import Packager.Proofs.FeedOrder
import Packager.Proofs.FileNames
import Packager.Proofs.FixedParts
import Packager.Proofs.FlushedFrames
import Packager.Proofs.FragmentLife
import Packager.Proofs.FullSegments
import Packager.Proofs.GateHistory
import Packager.Proofs.HeaderFirst
import Packager.Proofs.HeaderLayout
import Packager.Proofs.HeaderOnce
import Packager.Proofs.HeldAudio
import Packager.Proofs.Isolation
import Packager.Proofs.Journal
import Packager.Proofs.LastNames
import Packager.Proofs.Listing
import Packager.Proofs.LiveRun
import Packager.Proofs.ManifestFile
import Packager.Proofs.ManifestHistory
import Packager.Proofs.ManifestText
import Packager.Proofs.Mirror
import Packager.Proofs.Moves
import Packager.Proofs.NothingLost
import Packager.Proofs.Numbering
import Packager.Proofs.OneOrigin
import Packager.Proofs.Operations
import Packager.Proofs.OutputFiles
import Packager.Proofs.Phases
import Packager.Proofs.PictureUnits
import Packager.Proofs.RefusedFrames
import Packager.Proofs.Rounding
import Packager.Proofs.SampleFlow
import Packager.Proofs.SampleTimes
import Packager.Proofs.SealedSlots
import Packager.Proofs.SegmentLayout
import Packager.Proofs.Session
import Packager.Proofs.Setback
import Packager.Proofs.SharedOrigin
import Packager.Proofs.SortedEntries
import Packager.Proofs.StartCodes
import Packager.Proofs.SteadyPictures
import Packager.Proofs.Teardown
import Packager.Proofs.Templates
import Packager.Proofs.TrackHeaders
import Packager.Proofs.Turns
import Packager.Proofs.TypeScan
import Packager.Proofs.VideoStart
import Packager.Proofs.VideoTimeline
import Packager.Proofs.VolumeFiles
import Packager.Proofs.WholeBoxes
import Packager.Proofs.WideGaps
import Packager.Publisher
import Packager.Publisher.Channel
import Packager.Publisher.Cycle
import Packager.Publisher.Live
import Packager.Publisher.Snapshot
import Packager.Service
import Packager.Settings
import Packager.Settings.Complete
import Packager.Settings.Draft
import Packager.Settings.File
import Packager.Settings.Storage
import Packager.Slot
import Packager.SortedMap
import Packager.Text.Blank
import Packager.Text.Cut
import Packager.Text.Hidden
import Packager.Text.Letter
import Packager.Text.Pattern
import Packager.Text.Pattern.Bracket
import Packager.Text.Pattern.Escape
import Packager.Text.Pattern.Group
import Packager.Text.Pattern.Nesting
import Packager.Text.Quoted
import Packager.Text.Reader
import Packager.Ticks
import Packager.Toml.Document
import Packager.Toml.Key
import Packager.Toml.Layout
import Packager.Toml.Moment
import Packager.Toml.Numeral
import Packager.Toml.Quotation
import Packager.Toml.Space
import Packager.Toml.Tree
import Packager.Toml.Value
import Packager.Track.Assembly
import Packager.Track.Audio
import Packager.Track.Clock
import Packager.Track.OpenFragment
import Packager.Track.Segmenter
import Packager.Track.Video
import Packager.TrackHeader
