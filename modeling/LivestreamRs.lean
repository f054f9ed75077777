import LivestreamRs.Foundations.BigEndian
import LivestreamRs.Media.Packet
import LivestreamRs.Media.FlvTag
import LivestreamRs.Media.RtmpSource
import LivestreamRs.Media.FlvMux
import LivestreamRs.Media.NalFraming
import LivestreamRs.Media.FlvRelay
import LivestreamRs.Foundations.Cuts
import LivestreamRs.Hls.Playlist
import LivestreamRs.Hls.Segmenter
import LivestreamRs.Hls.Segmentation
import LivestreamRs.Hls.KeyframeAlignment
import LivestreamRs.Foundations.Transitions
import LivestreamRs.Hls.Branch
import LivestreamRs.Hls.Accounting
import LivestreamRs.Hls.Shutdown
import LivestreamRs.Hls.Upload
import LivestreamRs.Pipeline.FanOut
import LivestreamRs.Pipeline.Tasks
import LivestreamRs.Pipeline.Chain
import LivestreamRs.Pipeline.Conservation
import LivestreamRs.Pipeline.ScheduleIndependence
import LivestreamRs.Foundations.InputStream
import LivestreamRs.Rtsp.Headers
import LivestreamRs.Rtsp.InterleavedReader
import LivestreamRs.Rtsp.MessageReader
import LivestreamRs.Rtsp.Segmentation
import LivestreamRs.Rtmp.Handshake
import LivestreamRs.Foundations.Broadcast
import LivestreamRs.Foundations.CancellationTree
import LivestreamRs.Sessions.State
import LivestreamRs.Sessions.Dispatcher
import LivestreamRs.Sessions.Registry
import LivestreamRs.Sessions.Lifecycle
import LivestreamRs.Sessions.Tasks
import LivestreamRs.Sessions.Ownership
import LivestreamRs.Sessions.WellFormed
import LivestreamRs.Sessions.Tokens
import LivestreamRs.Sessions.Isolation
import LivestreamRs.Sessions.RtspStop
import LivestreamRs.Sessions.Control
import LivestreamRs.Sessions.CancelCause
import LivestreamRs.Sessions.Precreate
import LivestreamRs.Sessions.Custody
import LivestreamRs.Sessions.Claim
import LivestreamRs.Sessions.Leftovers
import LivestreamRs.Flv.LiveChannel
import LivestreamRs.Media.FramingAgreement
import LivestreamRs.Media.CodecConfig
import LivestreamRs.Hls.DeferredStart
import LivestreamRs.Hls.RecordingNames
import LivestreamRs.Rtsp.Sdp
import LivestreamRs.Rtsp.Session
import LivestreamRs.Foundations.WrappingClock
import LivestreamRs.Hls.DecodeTimes
import LivestreamRs.Hls.TimestampWrap
import LivestreamRs.Hls.Bookkeeping
import LivestreamRs.Sessions.Watch
import LivestreamRs.Flv.TagCodec
import LivestreamRs.Media.RtpBuf
import LivestreamRs.Media.RtpHeader
import LivestreamRs.Media.RtpProbation
import LivestreamRs.Flv.KeyframeRecovery
import LivestreamRs.Foundations.Regex
import LivestreamRs.Rtmp.StreamKey
import LivestreamRs.Sessions.Endpoints
import LivestreamRs.Media.Transcode
import LivestreamRs.Rtmp.Connect
import LivestreamRs.Rtsp.MessageSize
import LivestreamRs.Media.NalDecoding
import LivestreamRs.Media.AvcRecord
import LivestreamRs.Media.TranscodeHeader
import LivestreamRs.Hls.PresentationOrder
import LivestreamRs.Hls.StagedFiles
import LivestreamRs.Flv.FileHeader
import LivestreamRs.Rtsp.ReadersAgree
import LivestreamRs.Rtsp.Channels
import LivestreamRs.Rtsp.SdpSections
import LivestreamRs.Rtsp.SdpSlices
import LivestreamRs.Foundations.Records
import LivestreamRs.Media.FrameRateFilter
import LivestreamRs.Foundations.HolderCount
import LivestreamRs.Pipeline.Demand
import LivestreamRs.Sessions.ConnectResult
import LivestreamRs.Flv.Hub
import LivestreamRs.Foundations.Fields
import LivestreamRs.Rtsp.RequestLine
import LivestreamRs.Pipeline.AnySchedule
import LivestreamRs.Rtmp.Publish
import LivestreamRs.Flv.Playback
import LivestreamRs.Flv.LiveStream
import LivestreamRs.Rtsp.Record
import LivestreamRs.Hls.PlaylistText
import LivestreamRs.Sessions.Answers
import LivestreamRs.Sessions.ControlProgress
import LivestreamRs.Foundations.Permits
import LivestreamRs.Server.Admission
import LivestreamRs.Rtmp.ConnectOutcome
import LivestreamRs.Server.Supervision
import LivestreamRs.Hls.Archive
