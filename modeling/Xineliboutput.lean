import Xineliboutput.Client.DiscardRules
import Xineliboutput.Client.LocalWrite
import Xineliboutput.Client.Metronom
import Xineliboutput.Client.Subtitles
import Xineliboutput.Client.SpeedRules
import Xineliboutput.Client.TsDemuxRuns
import Xineliboutput.Client.VideoProperties
import Xineliboutput.Device.PipSlots
import Xineliboutput.Device.TsForwarding
import Xineliboutput.Elementary.SpsDecoding
import Xineliboutput.Http.LineReader
import Xineliboutput.Http.RangeService
import Xineliboutput.Osd.ArgbBlit
import Xineliboutput.Osd.ArgbLayers
import Xineliboutput.Osd.CommandRoundTrip
import Xineliboutput.Osd.ExecTime
import Xineliboutput.Osd.LineBuffers
import Xineliboutput.Osd.NetRle
import Xineliboutput.Osd.OsdStackRuns
import Xineliboutput.Osd.RemoteBounds
import Xineliboutput.Osd.ScaledImage
import Xineliboutput.Osd.ScaledPlace
import Xineliboutput.Osd.ScalerCache
import Xineliboutput.Playlist.EscapeString
import Xineliboutput.Playlist.MetadataCache
import Xineliboutput.Playlist.PlsReading
import Xineliboutput.Post.AnalyzedLines
import Xineliboutput.Post.CropWindow
import Xineliboutput.Post.LegalCrop
import Xineliboutput.Post.PluginWiring
import Xineliboutput.Server.ControlRuns
import Xineliboutput.Server.LateClient
import Xineliboutput.Server.MetaInfoMessage
import Xineliboutput.Server.PlayfileMessage
import Xineliboutput.Server.ReplayFlow
import Xineliboutput.Server.SlotRuns
import Xineliboutput.Server.StartPosition
import Xineliboutput.Tcp.HostileHeader
import Xineliboutput.Tcp.RawWriterRuns
import Xineliboutput.Tcp.ReaderRoundTrip
import Xineliboutput.Tcp.WriterFraming
import Xineliboutput.Ts.BrokenPes
import Xineliboutput.Ts.PacketizationResult
import Xineliboutput.Ts.PcrSearch
import Xineliboutput.Ts.PmtAudio
import Xineliboutput.Ts.TrackRuns
import Xineliboutput.Udp.ClockLaw
import Xineliboutput.Udp.LossFree
import Xineliboutput.Udp.MissingNotice
import Xineliboutput.Udp.Reordering
import Xineliboutput.Udp.RtpNumbering
import Xineliboutput.Udp.SapAnnouncement
