import RtkLocalization.Lib.PyFloat
import RtkLocalization.Lib.Callback
import RtkLocalization.Lib.Angle
import RtkLocalization.Lib.Rotation
import RtkLocalization.Lib.Ellipsoid
import RtkLocalization.Msgs
import RtkLocalization.PyMath
import RtkLocalization.PyFloatMath
import RtkLocalization.Wgs84
import RtkLocalization.Lib.LocalFrame
import RtkLocalization.MapFrame
import RtkLocalization.MapPointTools
import RtkLocalization.GeoreferencedRtkOdometry
import RtkLocalization.Lib.Covariance
import RtkLocalization.RtkOdometryCovariance
import RtkLocalization.ImuCovariance
import RtkLocalization.ImuNedToEnu
import RtkLocalization.MapRelativeHeadingImu
import RtkLocalization.HeadingValidity
import RtkLocalization.Lib.PyText
import RtkLocalization.Lib.PyDecimal
import RtkLocalization.MapOriginFile
import RtkLocalization.MapOriginLoaders
import RtkLocalization.MapOriginRecorder
import RtkLocalization.MapOriginRecording
import RtkLocalization.Lib.Sym3
import RtkLocalization.NavSatFixSanitizer
import RtkLocalization.NavSatFixCovariance
import RtkLocalization.OdometryLowPassFilter
import RtkLocalization.Lib.ExponentialSmoothing
import RtkLocalization.OdometrySmoothing
import RtkLocalization.OdometrySanitizer
import RtkLocalization.OdometryGate
import RtkLocalization.OdometryTrace
import RtkLocalization.OdometryTwist
import RtkLocalization.OdometrySpeedGate
import RtkLocalization.OdometryTiming
import RtkLocalization.WaypointLoopRunner
import RtkLocalization.Lib.Scatter
import RtkLocalization.Lib.Selection
import RtkLocalization.Lib.OrderStatistics
import RtkLocalization.CppMath
import RtkLocalization.PointCloudToLaserScan
import RtkLocalization.TerrainCells
import RtkLocalization.TerrainScan
import RtkLocalization.NonFiniteReturns
import RtkLocalization.ScanOrder
import RtkLocalization.ScanEdge
import RtkLocalization.GroundEstimate
import RtkLocalization.AdaptiveGround
import RtkLocalization.WaypointLoopRounds
import RtkLocalization.PoseHeadingToImu
import RtkLocalization.FastLioImuNedToEnu
import RtkLocalization.MapAnchorInjector
import RtkLocalization.GridArithmetic
import RtkLocalization.Lib.TimedQueue
import RtkLocalization.Lib.NewestFirst
import RtkLocalization.Lib.Keyed
import RtkLocalization.FilterBase
import RtkLocalization.RosFilter
import RtkLocalization.RosFilterRuns
import RtkLocalization.RosFilterStamps
import RtkLocalization.RosFilterQueue
import RtkLocalization.LaggedData
import RtkLocalization.SensorStreams
import RtkLocalization.Lib.Kalman
import RtkLocalization.Ekf
import RtkLocalization.EkfCovariance
import RtkLocalization.EkfJacobian
import RtkLocalization.LaserMapping
import RtkLocalization.LaserMappingSync
import RtkLocalization.IkdTree
import RtkLocalization.IkdTreeInvariant
import RtkLocalization.IkdTreeOps
import RtkLocalization.IkdTreeRuns
import RtkLocalization.Lib.BinaryHeap
import RtkLocalization.Lib.KLeast
import RtkLocalization.IkdTreeSearch
import RtkLocalization.LocalMap
import RtkLocalization.LidarDataQueue
import RtkLocalization.Pcd2Pgm
